import MailFetch.Proofs.RetryBudget
import Mathlib.Algebra.Ring.Nat

/-! # How many tries are left

A request may be handed over once more than it may have retries, so it has a number of tries left
(`Request.triesLeft`). It weighs twice this number while it waits, and one less when it has left the
queue: then being taken from the queue makes it lighter, and so does being sent back there, which
costs it a try.

* `Table.total_insert`, `Table.total_erase`: what a change of a table does to a sum over its values.
* `Queue.weight_push_le`, `Queue.weight_pop`, `Flights.weight_erase` and their fellows: what an
  operation on the books does to their weight.
* `Scheduler.weight_requeue_le`, `Scheduler.weight_breakOffAll_le` and their fellows: sending
  requests back makes nothing heavier. -/

namespace MailFetch

/-! ### Sums over tables -/

namespace Table

variable {α : Type} (f : α → Nat)

theorem find_eq_none_of_lt {l : List (Int × α)} {k : Int} (h : ∀ e ∈ l, k < e.1) :
    find k l = none := by
  induction l with
  | nil => rfl
  | cons a rest ih =>
    have hlt := h a List.mem_cons_self
    rw [find, if_neg (by omega)]
    exact ih fun e he => h e (.tail _ he)

theorem sum_put (k : Int) (v : α) {l : List (Int × α)} (h : l.Pairwise fun a b => a.1 < b.1) :
    ((put k v l).map fun e => f e.2).sum + ((find k l).map f).getD 0 =
      (l.map fun e => f e.2).sum + f v := by
  induction l with
  | nil => simp [put, find]
  | cons a rest ih =>
    obtain ⟨hhead, htail⟩ := List.pairwise_cons.mp h
    have ih := ih htail
    unfold put
    split_ifs with hlt heq
    · have hnone : find k (a :: rest) = none := by
        refine find_eq_none_of_lt fun e he => ?_
        rcases List.mem_cons.mp he with rfl | he
        · exact hlt
        · exact Int.lt_trans hlt (hhead e he)
      rw [hnone]
      simp only [List.map_cons, List.sum_cons, Option.map_none, Option.getD_none]
      omega
    · rw [find, if_pos heq.symm]
      simp only [List.map_cons, List.sum_cons, Option.map_some, Option.getD_some]
      omega
    · rw [find, if_neg (Ne.symm heq)]
      simp only [List.map_cons, List.sum_cons]
      omega

theorem sum_filter (k : Int) {l : List (Int × α)} (h : l.Pairwise fun a b => a.1 < b.1) :
    ((l.filter fun e => e.1 ≠ k).map fun e => f e.2).sum + ((find k l).map f).getD 0 =
      (l.map fun e => f e.2).sum := by
  induction l with
  | nil => rfl
  | cons a rest ih =>
    obtain ⟨hhead, htail⟩ := List.pairwise_cons.mp h
    have ih := ih htail
    by_cases heq : a.1 = k
    · have hnone : find k rest = none := by
        refine find_eq_none_of_lt fun e he => ?_
        rw [← heq]
        exact hhead e he
      rw [List.filter_cons_of_neg (by simpa using heq), find, if_pos heq]
      rw [hnone] at ih
      simp only [List.map_cons, List.sum_cons, Option.map_some, Option.map_none,
        Option.getD_some, Option.getD_none] at ih ⊢
      omega
    · rw [List.filter_cons_of_pos (by simpa using heq), find, if_neg heq]
      simp only [List.map_cons, List.sum_cons]
      omega

/-- The sum over the values of a table. -/
def total (t : Table α) : Nat := (t.values.map f).sum

theorem total_eq (t : Table α) : t.total f = (t.entries.map fun e => f e.2).sum := by
  rw [total, values, List.map_map]
  rfl

/-- A value that is set counts instead of the one that was there. -/
theorem total_insert (t : Table α) (k : Int) (v : α) :
    (t.insert k v).total f + ((t.get? k).map f).getD 0 = t.total f + f v := by
  rw [total_eq, total_eq]
  exact sum_put f k v t.ascending

theorem total_erase (t : Table α) (k : Int) :
    (t.erase k).total f + ((t.get? k).map f).getD 0 = t.total f := by
  rw [total_eq, total_eq]
  exact sum_filter f k t.ascending

end Table

/-! ### What a request weighs -/

namespace Request

/-- **How many tries a request has left**: how often it may still be handed over. -/
def triesLeft (limits : Settings) (r : Request) : Nat :=
  limits.maxRetries.toNat + 1 - r.retries.toNat

/-- What a request weighs in the queue. -/
def waitingWeight (limits : Settings) (r : Request) : Nat := 2 * r.triesLeft limits

/-- What a request weighs once it has left the queue. -/
def flyingWeight (limits : Settings) (r : Request) : Nat := r.waitingWeight limits - 1

variable {limits : Settings} {r : Request}

/-- Whoever may be there has a try left. -/
theorem flyingWeight_lt (hle : r.retries ≤ limits.maxRetries) :
    r.flyingWeight limits + 1 = r.waitingWeight limits := by
  have hle' := UInt32.le_iff_toNat_le.mp hle
  unfold flyingWeight waitingWeight triesLeft
  omega

/-- **One more retry costs a try**, so whoever comes back is lighter than before. -/
theorem waitingWeight_countRetry_lt (hmax : limits.maxRetries.toNat + 1 < UInt32.size)
    (hle : r.retries ≤ limits.maxRetries) :
    r.countRetry.waitingWeight limits < r.flyingWeight limits := by
  have hle' := UInt32.le_iff_toNat_le.mp hle
  have hcount := toNat_countRetry hmax hle
  unfold flyingWeight waitingWeight triesLeft
  omega

theorem flyingWeight_heard (now : Nat) (status : Status) (percent : Nat) :
    (r.heard now status percent).flyingWeight limits = r.flyingWeight limits := by
  unfold flyingWeight waitingWeight triesLeft
  rw [Errand.retries_heard]

end Request

/-! ### What the books weigh -/

namespace Queue

variable (limits : Settings)

/-- What the waiting requests weigh. -/
def weight (q : Queue) : Nat := q.index.total (·.waitingWeight limits)

theorem weight_drop_le (q : Queue) (id : Int) : (q.drop id).weight limits ≤ q.weight limits := by
  unfold drop remove
  split
  · exact Nat.le_refl _
  · exact Nat.le_of_add_right_le (Nat.le_of_eq (Table.total_erase _ q.index id))

theorem weight_push_le (q : Queue) (r : Request) :
    (q.push r).weight limits ≤ q.weight limits + r.waitingWeight limits := by
  unfold push add
  split_ifs
  · exact Nat.le_add_right _ _
  · exact Nat.le_add_right _ _
  · exact Nat.le_of_add_right_le (Nat.le_of_eq (Table.total_insert _ q.index r.id r))

/-- A request that joins in place of another. -/
theorem weight_drop_push_le (q : Queue) (id : Int) (r : Request) :
    ((q.drop id).push r).weight limits ≤ q.weight limits + r.waitingWeight limits :=
  Nat.le_trans ((q.drop id).weight_push_le limits r)
    (Nat.add_le_add_right (q.weight_drop_le limits id) _)

/-- Whoever leaves the queue does not weigh there any more. -/
theorem weight_pop {q q' : Queue} {r : Request} (h : q.pop = (some r, q')) :
    q'.weight limits + r.waitingWeight limits = q.weight limits := by
  unfold pop at h
  split at h
  · cases h
  next k rest _ =>
    obtain ⟨hr, rfl⟩ := Prod.mk.inj h
    have htotal := Table.total_erase (·.waitingWeight limits) q.index k.id
    rw [hr] at htotal
    exact htotal

/-- The requests in the order in which they leave, and by attachment. -/
theorem toList_perm {q : Queue} (hq : q.Matched) : q.toList.Perm q.index.values := by
  have hlisted : q.toList.Nodup := by
    refine (pairwise_toList hq).imp fun {a b} hbefore heq => ?_
    rw [heq] at hbefore
    exact SortKey.not_before_self b.sortKey hbefore
  have hvalues : q.index.values.Nodup := by
    refine List.Nodup.of_map (·.id) ?_
    have hids : q.index.values.map (·.id) = q.index.keysWhere fun _ => true := by
      unfold Table.values Table.keysWhere
      rw [List.filter_true, List.map_map]
      refine List.map_congr_left fun e he => ?_
      exact (hq.listed _ _ (Table.get?_eq_some_iff.mpr he)).1
    rw [hids]
    exact q.index.nodup_keysWhere _
  refine (List.perm_ext_iff_of_nodup hlisted hvalues).mpr fun r => ?_
  rw [mem_toList hq]
  unfold Table.values
  rw [List.mem_map]
  constructor
  · exact fun hr => ⟨_, Table.get?_eq_some_iff.mp hr, rfl⟩
  · rintro ⟨e, he, rfl⟩
    have hr := Table.get?_eq_some_iff.mpr he
    rw [(hq.listed _ _ hr).1]
    exact hr

theorem weight_eq {q : Queue} (hq : q.Matched) :
    q.weight limits = (q.toList.map (·.waitingWeight limits)).sum :=
  (((toList_perm hq).map _).sum_nat).symm

end Queue

namespace Flights

variable (limits : Settings)

/-- What the requests in flight weigh. -/
def weight (f : Flights) : Nat := f.table.total (·.flyingWeight limits)

theorem weight_insert_le (f : Flights) (r : Request) :
    (f.insert r).weight limits ≤ f.weight limits + r.flyingWeight limits :=
  Nat.le_of_add_right_le (Nat.le_of_eq (Table.total_insert _ f.table r.id r))

/-- A request in place of one that weighs as much. -/
theorem weight_insert_of_eq {f : Flights} {r r₀ : Request} (h : f.get? r.id = some r₀)
    (heq : r.flyingWeight limits = r₀.flyingWeight limits) :
    (f.insert r).weight limits = f.weight limits := by
  have htotal := Table.total_insert (·.flyingWeight limits) f.table r.id r
  rw [show f.table.get? r.id = some r₀ from h] at htotal
  have hsame : (f.insert r).weight limits + r₀.flyingWeight limits =
      f.weight limits + r.flyingWeight limits := htotal
  omega

theorem weight_erase {f : Flights} {id : Int} {r : Request} (h : f.get? id = some r) :
    (f.erase id).weight limits + r.flyingWeight limits = f.weight limits := by
  have htotal := Table.total_erase (·.flyingWeight limits) f.table id
  rwa [show f.table.get? id = some r from h] at htotal

end Flights

namespace Scheduler

/-- **What the requests in the books weigh.** -/
def weight (s : Scheduler) (limits : Settings) : Nat :=
  s.queue.weight limits + s.flights.weight limits

variable {s : Scheduler} {limits : Settings} {r : Request}

/-- **Whoever comes back from the air is lighter**, however the queue is changed for it. -/
theorem weight_rejoin_lt (hmax : limits.maxRetries.toNat + 1 < UInt32.size)
    (hle : r.retries ≤ limits.maxRetries) {q : Queue}
    (hq : q.weight limits ≤ s.queue.weight limits + r.countRetry.waitingWeight limits) :
    weight { s with queue := q } limits < s.weight limits + r.flyingWeight limits := by
  have hlt := Request.waitingWeight_countRetry_lt hmax hle
  unfold weight
  dsimp only
  omega

theorem weight_requeue_lt (hmax : limits.maxRetries.toNat + 1 < UInt32.size) (now : Nat)
    (hle : r.retries ≤ limits.maxRetries) :
    (s.requeue limits now r).2.weight limits < s.weight limits + r.flyingWeight limits := by
  unfold requeue
  dsimp only
  split_ifs
  · refine weight_rejoin_lt hmax hle ?_
    exact Nat.le_trans (s.queue.weight_drop_le limits r.id) (Nat.le_add_right _ _)
  · refine weight_rejoin_lt hmax hle ?_
    exact s.queue.weight_drop_push_le limits r.id (r.countRetry.retryCopy now)

theorem weight_retryAfterError_lt (hmax : limits.maxRetries.toNat + 1 < UInt32.size) (now : Nat)
    (hle : r.retries ≤ limits.maxRetries) :
    (s.retryAfterError limits now r).2.weight limits < s.weight limits + r.flyingWeight limits := by
  unfold retryAfterError
  dsimp only
  split_ifs
  · refine weight_rejoin_lt hmax hle ?_
    exact Nat.le_trans (s.queue.weight_drop_le limits r.id) (Nat.le_add_right _ _)
  · refine weight_rejoin_lt hmax hle ?_
    exact s.queue.weight_drop_push_le limits r.id
      { r.countRetry with notBefore := some (now + limits.retryDelay) }
  · refine weight_rejoin_lt hmax hle ?_
    exact s.queue.weight_drop_push_le limits r.id { r.countRetry with notBefore := none }

/-- Taking a request out of the air, its weight aside, changes nothing. -/
theorem weight_erase {id : Int} (h : s.flights.get? id = some r) :
    weight { s with flights := s.flights.erase id } limits + r.flyingWeight limits =
      s.weight limits := by
  have herase := Flights.weight_erase limits h
  unfold weight
  dsimp only
  omega

theorem weight_breakOff_le (hmax : limits.maxRetries.toNat + 1 < UInt32.size) (now : Nat) (id : Int)
    (hle : ∀ r, s.flights.get? id = some r → r.retries ≤ limits.maxRetries) :
    (s.breakOff limits now id).2.weight limits ≤ s.weight limits := by
  unfold breakOff
  split
  · exact Nat.le_refl _
  next r hr =>
    have hlt := weight_requeue_lt (s := { s with flights := s.flights.erase id }) (r := r.land) hmax
      now (hle r hr)
    have herase : _ + r.flyingWeight limits = _ := weight_erase hr
    have hsame : r.land.flyingWeight limits = r.flyingWeight limits := rfl
    omega

/-- **Breaking transfers off makes nothing heavier.** -/
theorem weight_breakOffAll_le (hmax : limits.maxRetries.toNat + 1 < UInt32.size) (now : Nat)
    (ids : List Int) (hle : ∀ id r, s.flights.get? id = some r → r.retries ≤ limits.maxRetries) :
    (s.breakOffAll limits now ids).2.weight limits ≤ s.weight limits := by
  induction ids generalizing s with
  | nil => exact Nat.le_refl _
  | cons id rest ih =>
    have hone := weight_breakOff_le hmax now id (hle id)
    have hrest := ih fun j r hr => hle j r (s.part_breakOff limits now id j r hr)
    exact Nat.le_trans hrest hone

end Scheduler

end MailFetch

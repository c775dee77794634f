import MailFetch.Flights
import MailFetch.Proofs.Queue
import Mathlib.Data.List.Perm.Subperm
import Mathlib.Data.List.Pairwise

/-! # Requests in flight: how many there are

The number of requests in flight, and of those of one account, depends only on who is in flight:

* `Flights.Within f g`: every request of `f` is in flight in `g` too, for the same account, though
  perhaps with other reports. Then `f` counts no more than `g`, in all and for each account.
* `Flights.size_insert_le`, `Flights.countFor_insert_le`: a request that is entered adds at most
  one, and nothing to the count of another account. -/

namespace MailFetch

/-! ### Counting entries -/

namespace Table

variable {α : Type}

/-- The keys whose values are of a kind. -/
def keysWhere (t : Table α) (p : α → Bool) : List Int :=
  (t.entries.filter fun e => p e.2).map (·.1)

theorem mem_values {t : Table α} {v : α} : v ∈ t.values ↔ ∃ k, t.get? k = some v := by
  simp only [values, List.mem_map, get?_eq_some_iff, Prod.exists, exists_eq_right]

theorem mem_keysWhere {t : Table α} {p : α → Bool} {k : Int} :
    k ∈ t.keysWhere p ↔ ∃ v, t.get? k = some v ∧ p v = true := by
  unfold keysWhere
  rw [List.mem_map]
  constructor
  · rintro ⟨⟨j, v⟩, he, rfl⟩
    rw [List.mem_filter] at he
    exact ⟨v, get?_eq_some_iff.mpr he.1, he.2⟩
  · rintro ⟨v, hv, hp⟩
    exact ⟨(k, v), List.mem_filter.mpr ⟨get?_eq_some_iff.mp hv, hp⟩, rfl⟩

theorem nodup_keysWhere (t : Table α) (p : α → Bool) : (t.keysWhere p).Nodup := by
  unfold keysWhere
  rw [List.Nodup, List.pairwise_map]
  refine (t.ascending.filter _).imp fun {a b} h => ?_
  omega

theorem length_filter_values (t : Table α) (p : α → Bool) :
    (t.values.filter p).length = (t.keysWhere p).length := by
  unfold values keysWhere
  rw [List.filter_map, List.length_map, List.length_map]
  rfl

theorem size_eq_length_keysWhere (t : Table α) : t.size = (t.keysWhere fun _ => true).length := by
  unfold size keysWhere
  simp

/-- If every key of one kind is one of the other, there are no more of them. -/
theorem length_keysWhere_le {β : Type} {t : Table α} {u : Table β} {p : α → Bool} {q : β → Bool}
    (h : ∀ k ∈ t.keysWhere p, k ∈ u.keysWhere q) :
    (t.keysWhere p).length ≤ (u.keysWhere q).length :=
  ((t.nodup_keysWhere p).subperm h).length_le

/-- With one key besides, there is at most one more. -/
theorem length_keysWhere_le_succ {β : Type} {t : Table α} {u : Table β} {p : α → Bool}
    {q : β → Bool} {j : Int} (h : ∀ k ∈ t.keysWhere p, k = j ∨ k ∈ u.keysWhere q) :
    (t.keysWhere p).length ≤ (u.keysWhere q).length + 1 := by
  have hsub : t.keysWhere p ⊆ j :: u.keysWhere q := fun k hk => List.mem_cons.mpr (h k hk)
  simpa using ((t.nodup_keysWhere p).subperm hsub).length_le

end Table

/-! ### Who is in flight -/

namespace Flights

@[simp] theorem get?_insert (f : Flights) (r : Request) (id : Int) :
    (f.insert r).get? id = if id = r.id then some r else f.get? id := Table.get?_insert ..

@[simp] theorem get?_erase (f : Flights) (id j : Int) :
    (f.erase id).get? j = if j = id then none else f.get? j := Table.get?_erase ..

theorem contains_iff {f : Flights} {id : Int} :
    f.contains id = true ↔ ∃ r, f.get? id = some r := Table.contains_iff_exists

theorem contains_eq_false_iff {f : Flights} {id : Int} :
    f.contains id = false ↔ f.get? id = none := Table.contains_eq_false_iff

theorem isEmpty_eq_false_iff {f : Flights} : f.isEmpty = false ↔ ∃ id r, f.get? id = some r :=
  Table.isEmpty_eq_false_iff

theorem isEmpty_iff {f : Flights} : f.isEmpty = true ↔ ∀ id, f.get? id = none := by
  rw [← Bool.not_eq_false, isEmpty_eq_false_iff]
  simp only [not_exists, Option.eq_none_iff_forall_ne_some, ne_eq]

/-- The attachments that are reported as stalled are in flight, and silent for too long. -/
theorem mem_stalled {f : Flights} {timeout now : Nat} {id : Int}
    (hids : ∀ id r, f.get? id = some r → r.id = id) :
    id ∈ f.stalled timeout now ↔ ∃ r, f.get? id = some r ∧ timeout < r.silence now := by
  unfold stalled Table.values
  simp only [List.mem_map, List.mem_filter, decide_eq_true_eq]
  constructor
  · rintro ⟨r, ⟨⟨e, he, rfl⟩, hlt⟩, rfl⟩
    have hsome : f.get? e.1 = some e.2 := Table.get?_eq_some_iff.mpr he
    exact ⟨e.2, by rw [hids _ _ hsome]; exact hsome, hlt⟩
  · rintro ⟨r, hr, hlt⟩
    exact ⟨r, ⟨⟨(id, r), Table.get?_eq_some_iff.mp hr, rfl⟩, hlt⟩, hids _ _ hr⟩

theorem not_mem_stalled {f : Flights} {timeout now : Nat} {id : Int} {r : Request}
    (hids : ∀ id r, f.get? id = some r → r.id = id) (hr : f.get? id = some r) :
    id ∉ f.stalled timeout now ↔ r.silence now ≤ timeout := by
  rw [mem_stalled hids, ← Nat.not_lt, not_iff_not]
  refine ⟨?_, fun hlt => ⟨r, hr, hlt⟩⟩
  rintro ⟨r', hr', hlt⟩
  rwa [Option.some.inj (hr.symm.trans hr')]

/-! ### How many are in flight -/

theorem countFor_eq (f : Flights) (account : Int) :
    f.countFor account = (f.table.keysWhere fun r => r.account == account).length :=
  f.table.length_filter_values _

theorem size_eq (f : Flights) : f.size = (f.table.keysWhere fun _ => true).length :=
  f.table.size_eq_length_keysWhere

/-- If whoever is in flight of an account in the first is so in the second, it has no more there. -/
theorem countFor_mono {f g : Flights} {account : Int}
    (h : ∀ id r, f.get? id = some r → r.account = account →
      ∃ r', g.get? id = some r' ∧ r'.account = account) :
    f.countFor account ≤ g.countFor account := by
  rw [countFor_eq, countFor_eq]
  refine Table.length_keysWhere_le fun k hk => ?_
  obtain ⟨r, hr, hacc⟩ := Table.mem_keysWhere.mp hk
  obtain ⟨r', hr', hacc'⟩ := h k r hr (by simpa using hacc)
  exact Table.mem_keysWhere.mpr ⟨r', hr', by simpa using hacc'⟩

/-- **Whoever is in flight in the first is so in the second**, for the same account. -/
def Within (f g : Flights) : Prop :=
  ∀ id r, f.get? id = some r → ∃ r', g.get? id = some r' ∧ r'.account = r.account

namespace Within

variable {f g : Flights}

theorem size_le (hfg : f.Within g) : f.size ≤ g.size := by
  rw [size_eq, size_eq]
  refine Table.length_keysWhere_le fun k hk => ?_
  obtain ⟨r, hr, -⟩ := Table.mem_keysWhere.mp hk
  obtain ⟨r', hr', -⟩ := hfg k r hr
  exact Table.mem_keysWhere.mpr ⟨r', hr', rfl⟩

theorem countFor_le (hfg : f.Within g) (account : Int) :
    f.countFor account ≤ g.countFor account :=
  countFor_mono fun id r hr hacc => (hfg id r hr).imp fun _ h => ⟨h.1, h.2.trans hacc⟩

theorem refl (f : Flights) : f.Within f := fun _ r hr => ⟨r, hr, rfl⟩

/-- A request joins, in place of none but one of its account. -/
theorem insert {r : Request} (h : ∀ r₀, f.get? r.id = some r₀ → r₀.account = r.account) :
    f.Within (f.insert r) := by
  intro id r₀ hr₀
  rw [get?_insert]
  split_ifs with hid
  · exact ⟨r, rfl, (h r₀ (hid ▸ hr₀)).symm⟩
  · exact ⟨r₀, hr₀, rfl⟩

end Within

theorem size_insert_le (f : Flights) (r : Request) : (f.insert r).size ≤ f.size + 1 := by
  rw [size_eq, size_eq]
  refine Table.length_keysWhere_le_succ (j := r.id) fun k hk => ?_
  obtain ⟨x, hx, -⟩ := Table.mem_keysWhere.mp hk
  have hx' : (f.insert r).get? k = some x := hx
  rw [get?_insert] at hx'
  split_ifs at hx' with he
  · exact .inl he
  · exact .inr (Table.mem_keysWhere.mpr ⟨x, hx', rfl⟩)

/-- A request adds at most one to the count of its account, and nothing to that of another. -/
theorem countFor_insert_le (f : Flights) (r : Request) (account : Int) :
    (f.insert r).countFor account ≤ f.countFor account + if r.account = account then 1 else 0 := by
  rw [countFor_eq, countFor_eq]
  have hkeys : ∀ k ∈ (f.insert r).table.keysWhere (fun x => x.account == account),
      k = r.id ∧ r.account = account ∨ k ∈ f.table.keysWhere (fun x => x.account == account) := by
    intro k hk
    obtain ⟨x, hx, hacc⟩ := Table.mem_keysWhere.mp hk
    have hx' : (f.insert r).get? k = some x := hx
    rw [get?_insert] at hx'
    split_ifs at hx' with he
    · obtain rfl := Option.some.inj hx'
      exact .inl ⟨he, by simpa using hacc⟩
    · exact .inr (Table.mem_keysWhere.mpr ⟨x, hx', hacc⟩)
  split_ifs with hacc
  · exact Table.length_keysWhere_le_succ fun k hk => (hkeys k hk).imp_left And.left
  · exact Table.length_keysWhere_le fun k hk => (hkeys k hk).resolve_left fun h => hacc h.2

/-! ### Requests under their own numbers -/

/-- Every request is entered under its own number. -/
def Filed (f : Flights) : Prop := ∀ id r, f.get? id = some r → r.id = id

namespace Filed

variable {f : Flights}

theorem empty : Filed .empty := by
  intro id r h
  simp [get?, Flights.empty] at h

theorem insert (h : f.Filed) (r : Request) : (f.insert r).Filed := by
  intro id x hx
  rw [get?_insert] at hx
  split_ifs at hx with hid
  · rw [← Option.some.inj hx, hid]
  · exact h id x hx

end Filed

/-! ### Fewer in flight -/

/-- The requests of the first are among those of the second, as they are there. -/
def Part (f g : Flights) : Prop := ∀ id r, f.get? id = some r → g.get? id = some r

namespace Part

variable {f g h : Flights}

theorem refl (f : Flights) : f.Part f := fun _ _ hr => hr

theorem trans (hfg : f.Part g) (hgh : g.Part h) : f.Part h :=
  fun id r hr => hgh id r (hfg id r hr)

theorem erase (f : Flights) (id : Int) : (f.erase id).Part f := by
  intro j r hr
  rw [get?_erase] at hr
  split_ifs at hr
  exact hr

end Part

end Flights

end MailFetch

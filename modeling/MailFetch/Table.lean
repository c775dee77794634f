/-! # Finite tables

A table assigns values to finitely many whole numbers. It is kept as the list of its entries in
ascending order of their keys, so two tables with the same entries are equal.

* `Table.get?_insert`, `Table.get?_erase`: what a change does to the value found under each key.
* `Table.ext_get?`: a table is determined by the values found under its keys. -/

namespace MailFetch

/-- **A finite table**, its entries in strictly ascending order of their keys. -/
structure Table (α : Type) where
  entries : List (Int × α)
  ascending : entries.Pairwise fun a b => a.1 < b.1
deriving DecidableEq

namespace Table

variable {α : Type}

/-! ### Entry lists -/

/-- The value under a key in a list of entries. -/
def find (k : Int) : List (Int × α) → Option α
  | [] => none
  | e :: rest => if e.1 = k then some e.2 else find k rest

/-- An ascending list of entries with the value under `k` set. -/
def put (k : Int) (v : α) : List (Int × α) → List (Int × α)
  | [] => [(k, v)]
  | e :: rest =>
    if k < e.1 then (k, v) :: e :: rest
    else if k = e.1 then (k, v) :: rest
    else e :: put k v rest

theorem mem_put {k : Int} {v : α} {e : Int × α} {l : List (Int × α)} (h : e ∈ put k v l) :
    e = (k, v) ∨ e ∈ l := by
  induction l with
  | nil => simpa [put] using h
  | cons a rest ih =>
    unfold put at h
    split at h
    · simpa using h
    · split at h
      · simp only [List.mem_cons] at h ⊢
        rcases h with h | h
        · exact .inl h
        · exact .inr (.inr h)
      · simp only [List.mem_cons] at h ⊢
        rcases h with h | h
        · exact .inr (.inl h)
        · rcases ih h with h | h
          · exact .inl h
          · exact .inr (.inr h)

theorem pairwise_put {k : Int} {v : α} {l : List (Int × α)}
    (h : l.Pairwise fun a b => a.1 < b.1) : (put k v l).Pairwise fun a b => a.1 < b.1 := by
  induction l with
  | nil => simp [put]
  | cons a rest ih =>
    have ⟨hhead, htail⟩ := List.pairwise_cons.1 h
    unfold put
    split
    · rename_i hlt
      refine List.pairwise_cons.2 ⟨fun b hb => ?_, h⟩
      rcases List.mem_cons.1 hb with rfl | hb
      · exact hlt
      · exact Int.lt_trans hlt (hhead b hb)
    · split
      · rename_i heq
        exact List.pairwise_cons.2 ⟨fun b hb => by have := hhead b hb; simp only; omega, htail⟩
      · refine List.pairwise_cons.2 ⟨fun b hb => ?_, ih htail⟩
        rcases mem_put hb with rfl | hb
        · simp only; omega
        · exact hhead b hb

theorem find_put (k j : Int) (v : α) (l : List (Int × α)) :
    find j (put k v l) = if j = k then some v else find j l := by
  induction l with
  | nil => by_cases h : k = j <;> simp [put, find, h, Ne.symm]
  | cons a rest ih =>
    unfold put
    split
    · by_cases h : j = k
      · simp [find, h]
      · simp [find, h, Ne.symm h]
    · split
      · rename_i heq
        by_cases h : j = k
        · simp [find, h]
        · have : ¬ a.1 = j := fun e => h (by omega)
          simp [find, h, Ne.symm h, this]
      · rename_i hne
        by_cases h : j = k
        · subst h
          simp [find, Ne.symm hne, ih]
        · simp [find, ih, h]

theorem find_filter (k j : Int) (l : List (Int × α)) :
    find j (l.filter fun e => e.1 ≠ k) = if j = k then none else find j l := by
  induction l with
  | nil => simp [find]
  | cons a rest ih =>
    by_cases hak : a.1 = k
    · rw [List.filter_cons_of_neg (by simpa using hak), ih]
      by_cases h : j = k
      · simp [h]
      · have : ¬ a.1 = j := fun e => h (by omega)
        simp [find, h, this]
    · rw [List.filter_cons_of_pos (by simpa using hak)]
      by_cases h : j = k
      · subst h
        simp only [find, hak, if_false, ih, if_true]
      · simp only [find, ih, h, if_false]

theorem find_eq_some_iff {l : List (Int × α)} (h : l.Pairwise fun a b => a.1 < b.1) {k : Int}
    {v : α} : find k l = some v ↔ (k, v) ∈ l := by
  induction l with
  | nil => simp [find]
  | cons a rest ih =>
    have ⟨hhead, htail⟩ := List.pairwise_cons.1 h
    by_cases hak : a.1 = k
    · simp only [find, hak, if_true, Option.some.injEq, List.mem_cons]
      constructor
      · rintro rfl
        exact .inl (by rw [← hak])
      · rintro (he | he)
        · rw [← he]
        · have := hhead _ he
          simp only at this
          omega
    · simp only [find, hak, if_false, ih htail, List.mem_cons]
      constructor
      · exact .inr
      · rintro (he | he)
        · exact absurd (by rw [← he]) hak
        · exact he

/-! ### Operations -/

/-- The table with no entry. -/
def empty : Table α := ⟨[], .nil⟩

instance : Inhabited (Table α) := ⟨empty⟩

/-- The value under a key. -/
def get? (t : Table α) (k : Int) : Option α := find k t.entries

/-- Whether a key has a value. -/
def contains (t : Table α) (k : Int) : Bool := (t.get? k).isSome

/-- Set the value under a key, whether or not it had one. -/
def insert (t : Table α) (k : Int) (v : α) : Table α :=
  ⟨put k v t.entries, pairwise_put t.ascending⟩

/-- Take away the value under a key. -/
def erase (t : Table α) (k : Int) : Table α :=
  ⟨t.entries.filter fun e => e.1 ≠ k, t.ascending.filter _⟩

/-- The number of entries. -/
def size (t : Table α) : Nat := t.entries.length

/-- Whether there is no entry. -/
def isEmpty (t : Table α) : Bool := t.entries.isEmpty

/-- The keys in ascending order. -/
def keys (t : Table α) : List Int := t.entries.map (·.1)

/-- The values in ascending order of their keys. -/
def values (t : Table α) : List α := t.entries.map (·.2)

/-- The table of a list of entries, of which the last one for a key counts. -/
def ofList (l : List (Int × α)) : Table α := l.foldl (fun t e => t.insert e.1 e.2) empty

/-- Change the value under a key, if it has one. -/
def modify (t : Table α) (k : Int) (f : α → α) : Table α :=
  match t.get? k with
  | some v => t.insert k (f v)
  | none => t

@[simp] theorem get?_empty (k : Int) : (empty : Table α).get? k = none := rfl

@[simp] theorem get?_insert (t : Table α) (k j : Int) (v : α) :
    (t.insert k v).get? j = if j = k then some v else t.get? j := find_put k j v t.entries

@[simp] theorem get?_erase (t : Table α) (k j : Int) :
    (t.erase k).get? j = if j = k then none else t.get? j := find_filter k j t.entries

theorem get?_eq_some_iff {t : Table α} {k : Int} {v : α} :
    t.get? k = some v ↔ (k, v) ∈ t.entries := find_eq_some_iff t.ascending

theorem contains_iff_exists {t : Table α} {k : Int} :
    t.contains k = true ↔ ∃ v, t.get? k = some v := Option.isSome_iff_exists

theorem ascending_eq_of_mem_iff {l m : List (Int × α)} (hl : l.Pairwise fun a b => a.1 < b.1)
    (hm : m.Pairwise fun a b => a.1 < b.1) (h : ∀ e, e ∈ l ↔ e ∈ m) : l = m := by
  induction l generalizing m with
  | nil =>
    cases m with
    | nil => rfl
    | cons b _ => exact absurd ((h b).2 (by simp)) (by simp)
  | cons a l ih =>
    cases m with
    | nil => exact absurd ((h a).1 (by simp)) (by simp)
    | cons b m =>
      have ⟨hla, hl'⟩ := List.pairwise_cons.1 hl
      have ⟨hmb, hm'⟩ := List.pairwise_cons.1 hm
      have hab : a = b := by
        rcases List.mem_cons.1 ((h a).1 (by simp)) with e | e
        · exact e
        · rcases List.mem_cons.1 ((h b).2 (by simp)) with e' | e'
          · exact e'.symm
          · have := hmb a e
            have := hla b e'
            omega
      subst hab
      congr 1
      refine ih hl' hm' fun e => ?_
      constructor
      · intro he
        rcases List.mem_cons.1 ((h e).1 (by simp [he])) with rfl | h'
        · have := hla e he
          omega
        · exact h'
      · intro he
        rcases List.mem_cons.1 ((h e).2 (by simp [he])) with rfl | h'
        · have := hmb e he
          omega
        · exact h'

/-- **A table is determined by the values under its keys.** -/
theorem ext_get? {s t : Table α} (h : ∀ k, s.get? k = t.get? k) : s = t := by
  obtain ⟨l, hl⟩ := s
  obtain ⟨m, hm⟩ := t
  have : l = m := ascending_eq_of_mem_iff hl hm fun e => by
    have := h e.1
    simp only [get?] at this
    rw [← find_eq_some_iff hl (k := e.1) (v := e.2), ← find_eq_some_iff hm (k := e.1) (v := e.2),
      this]
  subst this
  rfl

end Table

end MailFetch

import MailFetch.Proofs.Flights

/-! # The queue is one ordered list

Whoever uses the queue need not know of its two halves. A `Roster` is a single list of requests,
strictly sorted by class, time and attachment, with one request for an attachment and only numbers
that a record can have. `Queue.serves_as_roster` says that a queue gives the answers of a roster,
whatever it is asked in whatever order.

`Queue.Represents` relates the two: the keys of the queue are those of the roster in the same order,
and the index finds what the roster has. Every call keeps this (`Queue.Represents.serve`). -/

namespace MailFetch

/-! ### Rosters -/

/-- **A list of waiting requests** in the order in which they leave. -/
structure Roster where
  requests : List Request
  sorted : requests.Pairwise fun a b => a.sortKey.before b.sortKey = true
  distinct : requests.Pairwise fun a b => a.id ≠ b.id
  nonneg : ∀ r ∈ requests, 0 ≤ r.id

namespace Roster

/-- Put a request before the first one that it precedes. -/
def enter (r : Request) : List Request → List Request
  | [] => [r]
  | a :: rest => if r.sortKey.before a.sortKey then r :: a :: rest else a :: enter r rest

theorem mem_enter {r a : Request} {l : List Request} : a ∈ enter r l ↔ a = r ∨ a ∈ l := by
  induction l with
  | nil => simp [enter]
  | cons b rest ih =>
    unfold enter
    split_ifs
    · simp
    · rw [List.mem_cons, ih, List.mem_cons]
      tauto

theorem before_or_before {a b : Request} (h : a.id ≠ b.id) :
    a.sortKey.before b.sortKey = true ∨ b.sortKey.before a.sortKey = true := by
  by_contra hneither
  rw [not_or] at hneither
  have hkeys := SortKey.eq_of_not_before hneither.1 hneither.2
  exact h (congrArg SortKey.id hkeys)

theorem sorted_enter {r : Request} {l : List Request} (hnew : ∀ a ∈ l, a.id ≠ r.id)
    (h : l.Pairwise fun a b => a.sortKey.before b.sortKey = true) :
    (enter r l).Pairwise fun a b => a.sortKey.before b.sortKey = true := by
  induction l with
  | nil => simp [enter]
  | cons a rest ih =>
    obtain ⟨hhead, htail⟩ := List.pairwise_cons.mp h
    unfold enter
    split_ifs with hra
    · refine List.pairwise_cons.mpr ⟨fun b hb => ?_, h⟩
      rcases List.mem_cons.mp hb with rfl | hb
      · exact hra
      · exact SortKey.before_trans hra (hhead b hb)
    · have har := (before_or_before (hnew a List.mem_cons_self)).resolve_right hra
      refine List.pairwise_cons.mpr ⟨fun b hb => ?_, ih (fun b hb => hnew b (.tail _ hb)) htail⟩
      rcases mem_enter.mp hb with rfl | hb
      · exact har
      · exact hhead b hb

theorem distinct_enter {r : Request} {l : List Request} (hnew : ∀ a ∈ l, a.id ≠ r.id)
    (h : l.Pairwise fun a b => a.id ≠ b.id) : (enter r l).Pairwise fun a b => a.id ≠ b.id := by
  induction l with
  | nil => simp [enter]
  | cons a rest ih =>
    obtain ⟨hhead, htail⟩ := List.pairwise_cons.mp h
    unfold enter
    split_ifs
    · exact List.pairwise_cons.mpr ⟨fun b hb => (hnew b hb).symm, h⟩
    · refine List.pairwise_cons.mpr ⟨fun b hb => ?_, ih (fun b hb => hnew b (.tail _ hb)) htail⟩
      rcases mem_enter.mp hb with rfl | hb
      · exact hnew a List.mem_cons_self
      · exact hhead b hb

/-- Nobody waits. -/
def empty : Roster := ⟨[], .nil, .nil, List.forall_mem_nil _⟩

/-- The request for an attachment. -/
def find? (l : Roster) (id : Int) : Option Request := l.requests.find? fun r => r.id == id

/-- A request joins in its place, unless its number is refused or one for its attachment is there:
the one that was there first stays as it is. -/
def add (l : Roster) (r : Request) : Except InvalidRequestId (Bool × Roster) :=
  if hneg : r.id < 0 then .error ⟨r.id⟩
  else if hold : ∃ a ∈ l.requests, a.id = r.id then .ok (false, l)
  else
    have hnew : ∀ a ∈ l.requests, a.id ≠ r.id := fun a ha he => hold ⟨a, ha, he⟩
    .ok (true,
      { requests := enter r l.requests
        sorted := sorted_enter hnew l.sorted
        distinct := distinct_enter hnew l.distinct
        nonneg := by
          intro a ha
          rcases mem_enter.mp ha with rfl | ha
          · omega
          · exact l.nonneg a ha })

/-- The request for an attachment leaves. -/
def remove (l : Roster) (id : Int) : Option Request × Roster :=
  (l.find? id,
    { requests := l.requests.filter fun r => r.id ≠ id
      sorted := l.sorted.filter _
      distinct := l.distinct.filter _
      nonneg := fun r hr => l.nonneg r (List.mem_of_mem_filter hr) })

/-- The first request leaves. -/
def pop (l : Roster) : Option Request × Roster :=
  (l.requests.head?,
    { requests := l.requests.tail
      sorted := l.sorted.tail
      distinct := l.distinct.tail
      nonneg := fun r hr => l.nonneg r (List.mem_of_mem_tail hr) })

variable {l : Roster}

theorem requests_pop : l.pop.2.requests = l.requests.tail := rfl

theorem find?_of_mem {r : Request} (hr : r ∈ l.requests) : l.find? r.id = some r := by
  have hdistinct := l.distinct
  unfold find?
  generalize l.requests = rs at hr hdistinct
  induction rs with
  | nil => cases hr
  | cons a rest ih =>
    obtain ⟨hhead, htail⟩ := List.pairwise_cons.mp hdistinct
    rcases List.mem_cons.mp hr with rfl | hr
    · simp
    · rw [List.find?_cons_of_neg (by simpa using hhead r hr)]
      exact ih hr htail

theorem find?_eq_some_iff {id : Int} {r : Request} :
    l.find? id = some r ↔ r ∈ l.requests ∧ r.id = id := by
  constructor
  · intro h
    exact ⟨List.mem_of_find?_eq_some h, by simpa using List.find?_some h⟩
  · rintro ⟨hr, rfl⟩
    exact find?_of_mem hr

end Roster

/-! ### Calls and answers -/

/-- What a queue can be asked. -/
inductive QueueCall
  | add (r : Request)
  | remove (id : Int)
  | pop
  | find (id : Int)
  | contains (id : Int)
  | size
  | isEmpty
  | list
deriving DecidableEq

/-- What it answers. -/
inductive QueueAnswer
  | joined (yes : Bool)
  | refused (e : InvalidRequestId)
  | request (r : Option Request)
  | truth (yes : Bool)
  | count (n : Nat)
  | listing (l : List Request)
deriving DecidableEq

/-- The answer to a call, and the queue after it. -/
def Queue.serve (q : Queue) : QueueCall → QueueAnswer × Queue
  | .add r =>
    match q.add r with
    | .ok (yes, q') => (.joined yes, q')
    | .error e => (.refused e, q)
  | .remove id => ((.request (q.remove id).1), (q.remove id).2)
  | .pop => (.request q.pop.1, q.pop.2)
  | .find id => (.request (q.find? id), q)
  | .contains id => (.truth (q.contains id), q)
  | .size => (.count q.size, q)
  | .isEmpty => (.truth q.isEmpty, q)
  | .list => (.listing q.toList, q)

/-- The answer to a call, and the roster after it. -/
def Roster.serve (l : Roster) : QueueCall → QueueAnswer × Roster
  | .add r =>
    match l.add r with
    | .ok (yes, l') => (.joined yes, l')
    | .error e => (.refused e, l)
  | .remove id => (.request (l.remove id).1, (l.remove id).2)
  | .pop => (.request l.pop.1, l.pop.2)
  | .find id => (.request (l.find? id), l)
  | .contains id => (.truth (l.find? id).isSome, l)
  | .size => (.count l.requests.length, l)
  | .isEmpty => (.truth l.requests.isEmpty, l)
  | .list => (.listing l.requests, l)

/-- The answers to calls that follow one another, and what is left after them. -/
def serveAll {σ : Type} (serve : σ → QueueCall → QueueAnswer × σ) :
    σ → List QueueCall → List QueueAnswer × σ
  | s, [] => ([], s)
  | s, c :: rest =>
    let (a, s) := serve s c
    let (as, s) := serveAll serve s rest
    (a :: as, s)

namespace Queue

/-! ### The queue as a roster -/

/-- **A queue represents a roster**: it has the same keys in the same order, and finds the same
requests. -/
structure Represents (q : Queue) (l : Roster) : Prop where
  order : q.order = l.requests.map Request.sortKey
  index : ∀ id, q.index.get? id = l.find? id

variable {q : Queue} {l : Roster}

theorem represents_empty : Represents .empty .empty := ⟨rfl, fun _ => rfl⟩

/-- The key of a new request goes where the request goes. -/
theorem insertInto_map_sortKey {r : Request} {rs : List Request} (hnew : ∀ a ∈ rs, a.id ≠ r.id) :
    r.sortKey.insertInto (rs.map Request.sortKey) = (Roster.enter r rs).map Request.sortKey := by
  induction rs with
  | nil => rfl
  | cons a rest ih =>
    rw [List.map_cons, SortKey.insertInto, Roster.enter]
    split_ifs with hra har
    · rfl
    · rw [List.map_cons, ih fun b hb => hnew b (.tail _ hb)]
    · exact absurd ((Roster.before_or_before (hnew a List.mem_cons_self)).resolve_right hra) har

theorem Represents.contains (h : q.Represents l) (id : Int) :
    q.contains id = (l.find? id).isSome := by
  rw [← h.index id]
  rfl

theorem Represents.add (h : q.Represents l) (r : Request) :
    (q.serve (.add r)).1 = (l.serve (.add r)).1 ∧
      (q.serve (.add r)).2.Represents (l.serve (.add r)).2 := by
  have hcontains : q.index.contains r.id = true ↔ ∃ a ∈ l.requests, a.id = r.id := by
    rw [Table.contains_iff_exists, h.index]
    simp only [Roster.find?_eq_some_iff]
  unfold Queue.serve Roster.serve Queue.add Roster.add
  by_cases hneg : r.id < 0
  · simp only [hneg, if_true, dif_pos]
    exact ⟨trivial, h⟩
  by_cases hold : ∃ a ∈ l.requests, a.id = r.id
  · simp only [hneg, if_false, dif_neg, not_false_eq_true, hcontains.mpr hold, if_true, hold,
      dif_pos]
    exact ⟨trivial, h⟩
  have hfree : q.index.contains r.id = false :=
    Bool.eq_false_iff.mpr fun hc => hold (hcontains.mp hc)
  have hnew : ∀ a ∈ l.requests, a.id ≠ r.id := fun a ha he => hold ⟨a, ha, he⟩
  simp only [hneg, if_false, dif_neg, not_false_eq_true, hfree, hold, Bool.false_eq_true]
  refine ⟨trivial, ?_, fun id => ?_⟩
  · rw [h.order, insertInto_map_sortKey hnew]
  · rw [Table.get?_insert, h.index]
    ext x
    rw [Roster.find?_eq_some_iff, Roster.mem_enter]
    split_ifs with hid
    · rw [Option.some.injEq]
      refine ⟨fun hx => ⟨.inl hx.symm, by rw [← hx, hid]⟩, fun hx => ?_⟩
      rcases hx with ⟨rfl | hmem, hxid⟩
      · rfl
      · exact absurd (hxid.trans hid) (hnew x hmem)
    · rw [Roster.find?_eq_some_iff]
      refine and_congr_left fun hxid => ⟨.inr, fun hx => hx.resolve_left ?_⟩
      rintro rfl
      exact hid hxid.symm

theorem Represents.remove (h : q.Represents l) (id : Int) :
    (q.remove id).1 = l.find? id ∧ (q.remove id).2.Represents (l.remove id).2 := by
  unfold Queue.remove
  rw [h.index]
  cases hr : l.find? id with
  | none =>
    -- Nothing leaves, and the roster has nothing to filter out.
    have hkept : (l.remove id).2 = l := by
      have hall : l.requests.filter (fun r => r.id ≠ id) = l.requests := by
        refine List.filter_eq_self.mpr fun a ha => ?_
        have hne := List.find?_eq_none.mp hr a ha
        simpa using hne
      unfold Roster.remove
      simp only [hall]
    rw [hkept]
    exact ⟨rfl, h⟩
  | some r =>
    obtain ⟨hmem, rfl⟩ := Roster.find?_eq_some_iff.mp hr
    refine ⟨rfl, ?_, fun j => ?_⟩
    · unfold Roster.remove
      dsimp only
      rw [h.order, List.filter_map]
      congr 1
      refine List.filter_congr fun a ha => ?_
      have hkey : a.sortKey = r.sortKey ↔ a.id = r.id := by
        refine ⟨congrArg SortKey.id, fun hid => ?_⟩
        have ha' := Roster.find?_of_mem ha
        rw [hid, hr] at ha'
        rw [Option.some.inj ha']
      simp only [Function.comp, ne_eq, hkey]
    · dsimp only
      rw [Table.get?_erase, h.index]
      ext x
      split_ifs with hj
      · simp [Roster.find?_eq_some_iff, Roster.remove, hj]
      · simp only [Roster.find?_eq_some_iff, Roster.remove, List.mem_filter, decide_eq_true_eq]
        refine ⟨fun hx => ⟨⟨hx.1, by rw [hx.2]; simpa using hj⟩, hx.2⟩, fun hx => ⟨hx.1.1, hx.2⟩⟩

theorem Represents.pop (h : q.Represents l) :
    q.pop.1 = l.requests.head? ∧ q.pop.2.Represents l.pop.2 := by
  have horder := h.order
  obtain hl | ⟨r, rest, hl⟩ : l.requests = [] ∨ ∃ r rest, l.requests = r :: rest := by
    cases l.requests with
    | nil => exact .inl rfl
    | cons r rest => exact .inr ⟨r, rest, rfl⟩
  · rw [hl, List.map_nil] at horder
    have hpop : q.pop = (none, q) := by
      unfold Queue.pop
      simp only [horder]
    have htail : l.pop.2.requests = [] := by
      rw [Roster.requests_pop, hl]
      rfl
    rw [hpop, hl]
    refine ⟨rfl, ?_, fun id => ?_⟩
    · rw [htail, horder]
      rfl
    · rw [h.index, Roster.find?, Roster.find?, htail, hl]
  · rw [hl, List.map_cons] at horder
    have hr : l.find? r.id = some r := Roster.find?_of_mem (by rw [hl]; exact List.mem_cons_self)
    have hdistinct := l.distinct
    rw [hl] at hdistinct
    obtain ⟨hhead, -⟩ := List.pairwise_cons.mp hdistinct
    have hpop : q.pop =
        (some r, { order := rest.map Request.sortKey, index := q.index.erase r.id }) := by
      unfold Queue.pop
      simp only [horder]
      rw [Request.sortKey, h.index, hr]
    have htail : l.pop.2.requests = rest := by
      rw [Roster.requests_pop, hl]
      rfl
    rw [hpop, hl]
    refine ⟨rfl, ?_, fun id => ?_⟩
    · rw [htail]
    · dsimp only
      rw [Table.get?_erase, h.index, Roster.find?, Roster.find?, htail, hl]
      split_ifs with hid
      · refine (List.find?_eq_none.mpr fun a ha => ?_).symm
        simpa [hid] using (hhead a ha).symm
      · rw [List.find?_cons_of_neg (by simpa using Ne.symm hid)]

/-- A queue has as many requests as the roster. -/
theorem Represents.size (h : q.Represents l) : q.size = l.requests.length := by
  rw [Queue.size, Table.size_eq_length_keysWhere, ← List.length_map (f := Request.id)]
  refine List.Perm.length_eq ((List.perm_ext_iff_of_nodup (q.index.nodup_keysWhere _) ?_).mpr ?_)
  · rw [List.Nodup, List.pairwise_map]
    exact l.distinct
  · intro id
    rw [Table.mem_keysWhere, List.mem_map]
    simp only [h.index, Roster.find?_eq_some_iff, and_true]

theorem Represents.isEmpty (h : q.Represents l) : q.isEmpty = l.requests.isEmpty := by
  have hsize := h.size
  rw [Queue.size, Table.size] at hsize
  rw [Queue.isEmpty, Table.isEmpty, Bool.eq_iff_iff, List.isEmpty_iff_length_eq_zero,
    List.isEmpty_iff_length_eq_zero, hsize]

/-- A queue lists the requests of the roster. -/
theorem Represents.toList (h : q.Represents l) : q.toList = l.requests := by
  unfold Queue.toList
  rw [h.order, List.filterMap_map]
  have hself : ∀ r ∈ l.requests, ((fun k => q.index.get? k.id) ∘ Request.sortKey) r = some r :=
    fun r hr => (h.index r.id).trans (Roster.find?_of_mem hr)
  rw [List.filterMap_congr hself]
  exact List.filterMap_some

/-- **Every call** is answered as by the roster, which the queue represents from then on. -/
theorem Represents.serve (h : q.Represents l) (c : QueueCall) :
    (q.serve c).1 = (l.serve c).1 ∧ (q.serve c).2.Represents (l.serve c).2 := by
  cases c with
  | add r => exact h.add r
  | remove id => exact ⟨congrArg QueueAnswer.request (h.remove id).1, (h.remove id).2⟩
  | pop => exact ⟨congrArg QueueAnswer.request h.pop.1, h.pop.2⟩
  | find id =>
    refine ⟨congrArg QueueAnswer.request ?_, h⟩
    unfold Queue.find?
    split_ifs with hneg
    · -- No request of a roster has a negative number.
      refine (List.find?_eq_none.mpr fun a ha => ?_).symm
      have := l.nonneg a ha
      simp only [beq_iff_eq]
      omega
    · exact h.index id
  | contains id => exact ⟨congrArg QueueAnswer.truth (h.contains id), h⟩
  | size => exact ⟨congrArg QueueAnswer.count h.size, h⟩
  | isEmpty => exact ⟨congrArg QueueAnswer.truth h.isEmpty, h⟩
  | list => exact ⟨congrArg QueueAnswer.listing h.toList, h⟩

theorem Represents.serveAll (h : q.Represents l) (calls : List QueueCall) :
    (MailFetch.serveAll Queue.serve q calls).1 = (MailFetch.serveAll Roster.serve l calls).1 ∧
      (MailFetch.serveAll Queue.serve q calls).2.Represents
        (MailFetch.serveAll Roster.serve l calls).2 := by
  induction calls generalizing q l with
  | nil => exact ⟨rfl, h⟩
  | cons c rest ih =>
    obtain ⟨hanswer, hafter⟩ := h.serve c
    obtain ⟨hanswers, hend⟩ := ih hafter
    exact ⟨congrArg₂ List.cons hanswer hanswers, hend⟩

/-! ### Popping until nothing is left -/

theorem length_order_pop {r : Request} {q' : Queue} (h : q.pop = (some r, q')) :
    q'.order.length < q.order.length := by
  unfold Queue.pop at h
  split at h
  · cases h
  next k rest ho =>
    obtain ⟨-, rfl⟩ := Prod.mk.inj h
    rw [ho]
    exact Nat.lt_succ_self _

/-- What leaves when requests are taken until there is none, and the queue after that. -/
def drain (q : Queue) : List Request × Queue :=
  match h : q.pop with
  | (none, q') => ([], q')
  | (some r, q') =>
    have := length_order_pop h
    let (rs, q'') := q'.drain
    (r :: rs, q'')
termination_by q.order.length

/-- Until nothing is left, all requests leave in the order of the roster. -/
theorem Represents.drain (h : q.Represents l) :
    q.drain.1 = l.requests ∧ q.drain.2.Represents .empty := by
  generalize hn : l.requests.length = n
  induction n generalizing q l with
  | zero =>
    have hnil := List.eq_nil_of_length_eq_zero hn
    obtain ⟨hfirst, hrest⟩ := h.pop
    rw [hnil] at hfirst
    rw [Queue.drain]
    split
    next q' hp =>
      rw [hp] at hrest
      have hempty : l.pop.2 = .empty := by simp [Roster.pop, Roster.empty, hnil]
      exact ⟨hnil.symm, hempty ▸ hrest⟩
    next r q' hp =>
      rw [hp] at hfirst
      cases hfirst
  | succ n ih =>
    obtain ⟨r, rest, hcons⟩ := List.exists_cons_of_length_eq_add_one hn
    obtain ⟨hfirst, hrest⟩ := h.pop
    rw [hcons] at hfirst
    rw [Queue.drain]
    split
    next q' hp =>
      rw [hp] at hfirst
      cases hfirst
    next r' q' hp =>
      rw [hp] at hfirst hrest
      obtain rfl := Option.some.inj hfirst
      have htail : l.pop.2.requests = rest := by simp [Roster.pop, hcons]
      have hlength : l.pop.2.requests.length = n := by
        rw [htail]
        simpa [hcons] using hn
      obtain ⟨hlist, hend⟩ := ih hrest hlength
      refine ⟨?_, hend⟩
      rw [hcons, ← htail, ← hlist]

/-- **The queue is one ordered list.** Whatever it is asked, in whatever order and with whatever
requests, a queue answers as the roster does. After it, its keys are those of the requests of the
roster, its index finds exactly these requests, and taking requests until none is left yields them
in the order in which they were listed, and leaves nothing. -/
theorem serves_as_roster (calls : List QueueCall) :
    (MailFetch.serveAll Queue.serve .empty calls).1 =
        (MailFetch.serveAll Roster.serve .empty calls).1 ∧
      (MailFetch.serveAll Queue.serve .empty calls).2.Represents
        (MailFetch.serveAll Roster.serve .empty calls).2 ∧
      (MailFetch.serveAll Queue.serve .empty calls).2.drain =
        ((MailFetch.serveAll Queue.serve .empty calls).2.toList, .empty) := by
  obtain ⟨hanswers, hafter⟩ := represents_empty.serveAll calls
  obtain ⟨hdrain, hend⟩ := hafter.drain
  refine ⟨hanswers, hafter, Prod.ext (hdrain.trans hafter.toList.symm) ?_⟩
  have hindex : (MailFetch.serveAll Queue.serve .empty calls).2.drain.2.index = .empty :=
    Table.ext_get? hend.index
  generalize (MailFetch.serveAll Queue.serve .empty calls).2.drain.2 = q at hend hindex
  obtain ⟨order, index⟩ := q
  obtain rfl : order = [] := hend.order
  rw [show index = .empty from hindex]
  rfl

end Queue

end MailFetch

import Mathlib.Algebra.Ring.Nat
import Mathlib.Data.List.Basic
import MailFetch.Transfer.Download

/-! # What a transfer reports about itself

A transfer tells how far it has got, and at the end whether the attachment is there. Its reports
are read here against what happens to the request: whether there is a location, what the answer
is, how much of the body arrives, and what the file system makes of it.

* `mem_percents`: the percentages on the way are those that the arrived part of the body has at
  some moment, without zero, and `percents_rising` says that they rise.
* `Job.Delivers`: the answer is a success, the body is complete, written and moved to its place.
* `Job.Breaks`: the things that can go wrong instead, each with its failure.
* `Job.Delivers.progress`: a transfer that delivers its attachment has told all its percentages.
* `beginTransfer_reports`: progress below one hundred, then one last report, which is a success
  exactly if the body is delivered and else has the status of what went wrong. -/

namespace MailFetch

/-! ## Percentages -/

theorem percentOf_le (received total : Nat) : percentOf received total ≤ 99 :=
  Nat.min_le_right _ _

theorem percentOf_of_small {received total : Nat} (h : 100 * received < 2 ^ 64) :
    percentOf received total = min 99 (100 * received / total) := by
  have hsmall : min (received * 100) 0xFFFFFFFFFFFFFFFF = 100 * received := by omega
  rw [percentOf, hsmall, Nat.min_comm]

theorem percentOf_le_percentOf {m n : Nat} (h : m ≤ n) (total : Nat) :
    percentOf m total ≤ percentOf n total := by
  have hcut : min (m * 100) 0xFFFFFFFFFFFFFFFF ≤ min (n * 100) 0xFFFFFFFFFFFFFFFF := by omega
  have hdiv := Nat.div_le_div_right (c := total) hcut
  unfold percentOf
  omega

/-- Each percentage is higher than the ones before it and than the last that was told. -/
theorem percents_rising (total received last : Nat) (pieces : List (List UInt8)) :
    (last :: percents total received last pieces).Pairwise (· < ·) := by
  induction pieces generalizing received last with
  | nil => simp [percents]
  | cons piece rest ih =>
    simp only [percents]
    split_ifs with h
    · have htail := ih (received + piece.length) (percentOf (received + piece.length) total)
      refine List.pairwise_cons.2 ⟨fun p hp => ?_, htail⟩
      rcases List.mem_cons.1 hp with rfl | hp
      · exact h.2
      · exact Nat.lt_trans h.2 ((List.pairwise_cons.1 htail).1 p hp)
    · exact ih _ _

/-- **Which percentages are told**: those of the arrived bytes at some moment, as far as they are
above the last one told before. -/
theorem mem_percents {total received last : Nat} (pieces : List (List UInt8))
    (hlast : percentOf received total ≤ last) (p : Nat) :
    p ∈ percents total received last pieces ↔
      0 < total ∧ last < p ∧
        ∃ arrived, arrived <+: pieces ∧
          p = percentOf (received + arrived.flatten.length) total := by
  induction pieces generalizing received last with
  | nil =>
    simp only [percents, List.not_mem_nil, List.prefix_nil, exists_eq_left, List.flatten_nil,
      List.length_nil, Nat.add_zero, false_iff]
    rintro ⟨-, hlow, rfl⟩
    omega
  | cons piece rest ih =>
    -- the first piece is part of what has arrived unless nothing has, which is not above `last`
    have hcons : (last < p ∧ ∃ arrived, arrived <+: piece :: rest ∧
          p = percentOf (received + arrived.flatten.length) total) ↔
        last < p ∧ ∃ arrived, arrived <+: rest ∧
          p = percentOf (received + piece.length + arrived.flatten.length) total := by
      refine and_congr_right fun hlow => ⟨?_, ?_⟩
      · rintro ⟨arrived, hpre, rfl⟩
        cases arrived with
        | nil => simp only [List.flatten_nil, List.length_nil, Nat.add_zero] at hlow; omega
        | cons first more =>
          obtain ⟨rfl, hmore⟩ := List.cons_prefix_cons.1 hpre
          exact ⟨more, hmore, by simp [Nat.add_assoc]⟩
      · rintro ⟨arrived, hpre, rfl⟩
        exact ⟨piece :: arrived, List.cons_prefix_cons.2 ⟨rfl, hpre⟩, by simp [Nat.add_assoc]⟩
    rw [hcons]
    simp only [percents]
    split_ifs with h
    · rw [List.mem_cons, ih (Nat.le_refl _)]
      constructor
      · rintro (rfl | ⟨ht, hlow, harrived⟩)
        · exact ⟨h.1, h.2, [], List.nil_prefix, by simp⟩
        · exact ⟨ht, Nat.lt_trans h.2 hlow, harrived⟩
      · rintro ⟨ht, -, arrived, hpre, rfl⟩
        have hle := percentOf_le_percentOf
          (Nat.le_add_right (received + piece.length) arrived.flatten.length) total
        rcases Nat.eq_or_lt_of_le hle with heq | hlt
        · exact .inl heq.symm
        · exact .inr ⟨ht, hlt, arrived, hpre, rfl⟩
    · rw [ih ?_]
      rcases Nat.eq_zero_or_pos total with rfl | ht
      · simp [percentOf]
      · exact Nat.not_lt.1 fun hlt => h ⟨ht, hlt⟩

/-! ## The partial file -/

theorem FileTree.appendPieces_prefix (t : FileTree) (p : Path) (pieces : List (List UInt8)) :
    (t.appendPieces p pieces).2 <+: pieces := by
  induction pieces generalizing t with
  | nil => exact List.prefix_rfl
  | cons piece rest ih =>
    simp only [appendPieces]
    cases t.appendFile p piece with
    | none => exact List.nil_prefix
    | some t' => exact List.cons_prefix_cons.2 ⟨rfl, ih t'⟩

/-- A file holds what it held and the pieces written since. -/
theorem FileTree.get?_appendPieces {t : FileTree} {p : Path} {content : List UInt8} (hp : p ≠ [])
    (h : t.get? p = some (.file content)) (pieces : List (List UInt8)) :
    (t.appendPieces p pieces).1.get? p =
      some (.file (content ++ (t.appendPieces p pieces).2.flatten)) := by
  induction pieces generalizing t content with
  | nil => simpa [appendPieces] using h
  | cons piece rest ih =>
    simp only [appendPieces, appendFile, h]
    split_ifs
    · have hset := get?_set t hp p (.file (content ++ piece))
      rw [if_pos rfl] at hset
      simpa [List.append_assoc] using ih hset
    · simpa using h

/-- Without a limit all pieces are written. -/
theorem FileTree.appendPieces_of_unlimited {t : FileTree} {p : Path} {content : List UInt8}
    (hp : p ≠ []) (hroom : t.capacity = none) (h : t.get? p = some (.file content))
    (pieces : List (List UInt8)) : (t.appendPieces p pieces).2 = pieces := by
  induction pieces generalizing t content with
  | nil => rfl
  | cons piece rest ih =>
    have hset : (t.set p (.file (content ++ piece))).get? p = some (.file (content ++ piece)) := by
      rw [get?_set t hp, if_pos rfl]
    simpa [appendPieces, appendFile, h, fits, hroom] using
      ih (t := t.set p (.file (content ++ piece))) hroom hset

/-- Writing on to one file leaves the other paths as they are. -/
theorem FileTree.get?_appendPieces_of_ne {t : FileTree} {p q : Path} (hp : p ≠ []) (hq : q ≠ p)
    (pieces : List (List UInt8)) : (t.appendPieces p pieces).1.get? q = t.get? q := by
  induction pieces generalizing t with
  | nil => rfl
  | cons piece rest ih =>
    simp only [appendPieces]
    cases happend : t.appendFile p piece with
    | none => rfl
    | some t' =>
      have hkeep : t'.get? q = t.get? q := by
        unfold appendFile at happend
        split at happend
        · split_ifs at happend
          obtain rfl := Option.some.inj happend
          rw [get?_set t hp, if_neg hq]
        · cases happend
      exact (ih (t := t')).trans hkeep

theorem FileTree.writeFile_eq_some {t t' : FileTree} {p : Path} {content : List UInt8}
    (h : t.writeFile p content = some t') : p ≠ [] ∧ t'.get? p = some (.file content) := by
  unfold writeFile at h
  split_ifs at h with hp
  obtain rfl := Option.some.inj h
  exact ⟨hp.1, by rw [get?_set t hp.1, if_pos rfl]⟩

theorem FileTree.get?_moveFile {t t' : FileTree} {p q : Path} {content : List UInt8}
    (h : t.moveFile p q = some t') (hp : t.get? p = some (.file content)) :
    t'.get? q = some (.file content) := by
  simp only [moveFile, hp] at h
  split_ifs at h with hq
  obtain rfl := Option.some.inj h
  rw [get?_set _ hq.1, if_pos rfl]

theorem FileTree.moveFile_of_free {t : FileTree} {p q : Path} {content : List UInt8}
    (hp : t.get? p = some (.file content)) (hq : q ≠ []) (hdir : t.isDir q.dropLast = true)
    (hfree : t.isDir q = false) : ∃ t', t.moveFile p q = some t' := by
  refine ⟨(t.erase p).set q (.file content), ?_⟩
  rw [moveFile, hp]
  exact if_pos ⟨hq, hdir, by simp [hfree]⟩

/-! ## How a transfer ends -/

namespace Job

variable {j : Job} {web : String → Exchange} {t : FileTree}

/-- The body of an answer gets to its place: a partial file is made, every piece is written to it,
nothing of the body is missing, and the file is moved to the final path, which leaves `moved`. -/
def Stores (j : Job) (r : Response) (t moved : FileTree) : Prop :=
  ∃ created filled, t.writeFile (partialPath j.path) [] = some created ∧
    created.appendPieces (partialPath j.path) r.pieces = (filled, r.pieces) ∧
    r.complete = true ∧ filled.moveFile (partialPath j.path) j.path = some moved

/-- **A transfer delivers its attachment**: there is a location, the answer from there is a
success, and its body gets to its place. -/
def Delivers (j : Job) (web : String → Exchange) (t moved : FileTree) : Prop :=
  ∃ url r, j.location = some url ∧ web url = .answered r ∧ (200 ≤ r.status ∧ r.status < 300) ∧
    j.Stores r t moved

/-- **What can go wrong with a body**, in the order in which it is received. -/
inductive Spoils (j : Job) (r : Response) (t : FileTree) : TransferError → Prop
  | uncreated (h : t.writeFile (partialPath j.path) [] = none) : Spoils j r t (.io "cannot create")
  | unwritten {created : FileTree} (h : t.writeFile (partialPath j.path) [] = some created)
      (hshort : (created.appendPieces (partialPath j.path) r.pieces).2 ≠ r.pieces) :
      Spoils j r t (.io "cannot write")
  | cut {created filled : FileTree} (h : t.writeFile (partialPath j.path) [] = some created)
      (hall : created.appendPieces (partialPath j.path) r.pieces = (filled, r.pieces))
      (hcut : r.complete = false) : Spoils j r t .network
  | unmoved {created filled : FileTree} (h : t.writeFile (partialPath j.path) [] = some created)
      (hall : created.appendPieces (partialPath j.path) r.pieces = (filled, r.pieces))
      (hcomplete : r.complete = true)
      (hmove : filled.moveFile (partialPath j.path) j.path = none) :
      Spoils j r t (.io "cannot rename")

/-- **What can go wrong with a transfer**, in the order in which it proceeds. -/
inductive Breaks (j : Job) (web : String → Exchange) (t : FileTree) : TransferError → Prop
  | noLocation (h : j.location = none) : Breaks j web t (.noLocation j.id)
  | noConnection {url : String} (h : j.location = some url) (hweb : web url = .noConnection) :
      Breaks j web t .network
  | refused {url : String} {r : Response} (h : j.location = some url)
      (hweb : web url = .answered r) (hstatus : r.status < 200 ∨ 300 ≤ r.status) :
      Breaks j web t (.http r.status)
  | spoiled {url : String} {r : Response} {e : TransferError} (h : j.location = some url)
      (hweb : web url = .answered r) (hstatus : 200 ≤ r.status ∧ r.status < 300)
      (he : j.Spoils r t e) : Breaks j web t e

/-- With a directory to put the file in, nothing in its way and no limit, a complete body gets to
its place. -/
theorem stores_of_room {r : Response} (hpath : j.path ≠ []) (hdir : t.isDir j.path.dropLast = true)
    (hpart : t.isDir (partialPath j.path) = false) (hfree : t.isDir j.path = false)
    (hroom : t.capacity = none) (hcomplete : r.complete = true) : ∃ moved, j.Stores r t moved := by
  obtain ⟨name, hname⟩ : ∃ name, j.path.getLast? = some name :=
    ⟨_, List.getLast?_eq_some_getLast hpath⟩
  have hside : partialPath j.path = j.path.dropLast ++ [Path.withExtension name "part"] := by
    simp [partialPath, hname]
  have hne : partialPath j.path ≠ [] := by simp [hside]
  have hup : (partialPath j.path).dropLast = j.path.dropLast := by simp [hside]
  have hdir_ne : j.path.dropLast ≠ partialPath j.path := by simp [hside]
  obtain ⟨created, hcreated⟩ : ∃ created, created = t.set (partialPath j.path) (.file []) :=
    ⟨_, rfl⟩
  have hcreate : t.writeFile (partialPath j.path) [] = some created := by
    rw [hcreated]
    exact if_pos ⟨hne, by rw [hup]; exact hdir, by simp [hpart]⟩
  obtain ⟨-, hempty⟩ := FileTree.writeFile_eq_some hcreate
  have hcap : created.capacity = none := by rw [hcreated]; exact hroom
  have hall := FileTree.appendPieces_of_unlimited hne hcap hempty r.pieces
  have hfull := FileTree.get?_appendPieces hne hempty r.pieces
  have hkeep : ∀ q, q ≠ partialPath j.path →
      (created.appendPieces (partialPath j.path) r.pieces).1.get? q = t.get? q := by
    intro q hq
    rw [FileTree.get?_appendPieces_of_ne hne hq, hcreated, FileTree.get?_set t hne, if_neg hq]
  rcases hfill : created.appendPieces (partialPath j.path) r.pieces with ⟨filled, written⟩
  rw [hfill] at hall hfull hkeep
  obtain rfl : written = r.pieces := hall
  have hdir' : filled.isDir j.path.dropLast = true := by
    rw [FileTree.isDir, hkeep _ hdir_ne]; exact hdir
  have hfree' : filled.isDir j.path = false := by
    by_cases hq : j.path = partialPath j.path
    · rw [FileTree.isDir, hq, hfull]; rfl
    · rw [FileTree.isDir, hkeep _ hq]; exact hfree
  obtain ⟨moved, hmove⟩ := FileTree.moveFile_of_free hfull hpath hdir' hfree'
  exact ⟨moved, created, filled, hcreate, hfill, hcomplete, hmove⟩

/-- **What receiving a body comes to**: the progress of the pieces that could be written, and
either the body in its place or a failure, which is what went wrong. -/
theorem receive_cases (j : Job) (r : Response) (t : FileTree) :
    ∃ written tree failure, written <+: r.pieces ∧
      j.receive r t =
        (tree, (percents (j.total r) 0 0 written).map (j.report .inProgress), failure) ∧
      (failure = none ∧ j.Stores r t tree ∨ ∃ e, failure = some e ∧ j.Spoils r t e) := by
  cases hcreate : t.writeFile (partialPath j.path) [] with
  | none =>
    exact ⟨[], _, _, List.nil_prefix, by simp only [receive, hcreate]; rfl,
      .inr ⟨_, rfl, .uncreated hcreate⟩⟩
  | some created =>
    have hpre := created.appendPieces_prefix (partialPath j.path) r.pieces
    rcases hfill : created.appendPieces (partialPath j.path) r.pieces with ⟨filled, written⟩
    rw [hfill] at hpre
    by_cases hshort : written.length < r.pieces.length
    · refine ⟨written, _, _, hpre, by simp only [receive, hcreate, hfill, if_pos hshort]; rfl,
        .inr ⟨_, rfl, .unwritten hcreate fun hall => ?_⟩⟩
      rw [hfill] at hall
      simp [show written = r.pieces from hall] at hshort
    obtain rfl : written = r.pieces :=
      hpre.eq_of_length (Nat.le_antisymm hpre.length_le (Nat.not_lt.1 hshort))
    cases hcomplete : r.complete with
    | false =>
      exact ⟨r.pieces, _, _, hpre, by simp [receive, hcreate, hfill, hcomplete]; rfl,
        .inr ⟨_, rfl, .cut hcreate hfill hcomplete⟩⟩
    | true =>
      cases hmove : filled.moveFile (partialPath j.path) j.path with
      | none =>
        exact ⟨r.pieces, _, _, hpre, by simp [receive, hcreate, hfill, hcomplete, hmove]; rfl,
          .inr ⟨_, rfl, .unmoved hcreate hfill hcomplete hmove⟩⟩
      | some moved =>
        exact ⟨r.pieces, _, _, hpre, by simp [receive, hcreate, hfill, hcomplete, hmove],
          .inl ⟨rfl, created, filled, hcreate, hfill, hcomplete, hmove⟩⟩

/-- A body that gets to its place is not spoiled. -/
theorem Stores.not_spoils {r : Response} {moved : FileTree} (h : j.Stores r t moved)
    (e : TransferError) : ¬ j.Spoils r t e := by
  obtain ⟨created, filled, hcreate, hfill, hcomplete, hmove⟩ := h
  rintro (h | ⟨h, hshort⟩ | ⟨h, hall, hcut⟩ | ⟨h, hall, -, hmove'⟩)
  · simp [hcreate] at h
  · obtain rfl : created = _ := by simpa [hcreate] using h
    exact hshort (by rw [hfill])
  · simp [hcomplete] at hcut
  · obtain rfl : created = _ := by simpa [hcreate] using h
    obtain rfl : filled = _ := by simpa [hfill] using hall
    simp [hmove] at hmove'

/-- A transfer that delivers its attachment is not broken off. -/
theorem Delivers.not_breaks {moved : FileTree} (h : j.Delivers web t moved) (e : TransferError) :
    ¬ j.Breaks web t e := by
  obtain ⟨url, r, hurl, hr, hstatus, hstores⟩ := h
  rintro (h | ⟨h, hweb⟩ | ⟨h, hweb, hrefused⟩ | ⟨h, hweb, -, he⟩)
  · simp [hurl] at h
  all_goals
    obtain rfl : url = _ := by simpa [hurl] using h
  · simp [hr] at hweb
  · obtain rfl : r = _ := by simpa [hr] using hweb
    omega
  · obtain rfl : r = _ := by simpa [hr] using hweb
    exact hstores.not_spoils _ he

/-- **What a transfer comes to**: progress if pieces of a body arrived, one last report, and either
the delivered attachment or a failure, which is what went wrong. -/
theorem run_cases (j : Job) (web : String → Exchange) (t : FileTree) :
    ∃ ps tree failure,
      j.run web t = (tree, ps.map (j.report .inProgress) ++ [j.lastReport failure]) ∧
      (ps = [] ∨ ∃ url r written, j.location = some url ∧ web url = .answered r ∧
        written <+: r.pieces ∧ ps = percents (j.total r) 0 0 written) ∧
      (failure = none ∧ j.Delivers web t tree ∨ ∃ e, failure = some e ∧ j.Breaks web t e) := by
  cases hurl : j.location with
  | none =>
    exact ⟨[], t, _, by simp only [run, hurl]; rfl, .inl rfl, .inr ⟨_, rfl, .noLocation hurl⟩⟩
  | some url =>
    cases hr : web url with
    | noConnection =>
      exact ⟨[], t, _, by simp only [run, hurl, hr, fetch]; rfl, .inl rfl,
        .inr ⟨_, rfl, .noConnection hurl hr⟩⟩
    | answered r =>
      by_cases hstatus : 200 ≤ r.status ∧ r.status < 300
      · have hsuccess : r.isSuccess = true := by simpa [Response.isSuccess] using hstatus
        obtain ⟨written, tree, failure, hpre, hreceive, hends⟩ := j.receive_cases r t
        refine ⟨_, tree, failure, by simp [run, hurl, hr, fetch, hsuccess, hreceive],
          .inr ⟨url, r, written, rfl, hr, hpre, rfl⟩, ?_⟩
        rcases hends with ⟨rfl, hstores⟩ | ⟨e, rfl, he⟩
        · exact .inl ⟨rfl, url, r, hurl, hr, hstatus, hstores⟩
        · exact .inr ⟨e, rfl, .spoiled hurl hr hstatus he⟩
      · have hrefused : r.isSuccess = false := by
          simpa only [Response.isSuccess, ← Bool.not_eq_true, Bool.and_eq_true, decide_eq_true_eq]
            using hstatus
        exact ⟨[], t, _, by simp [run, hurl, hr, fetch, hrefused], .inl rfl,
          .inr ⟨_, rfl, .refused hurl hr (by omega)⟩⟩

/-- A body that gets to its place is received with the progress of all its pieces. -/
theorem Stores.receive_eq {r : Response} {moved : FileTree} (h : j.Stores r t moved) :
    j.receive r t =
      (moved, (percents (j.total r) 0 0 r.pieces).map (j.report .inProgress), none) := by
  obtain ⟨created, filled, hcreate, hfill, hcomplete, hmove⟩ := h
  simp [receive, hcreate, hfill, hcomplete, hmove]

/-- A transfer that delivers its attachment leaves the tree with the file in its place, and tells
the progress of the whole body and the success. -/
theorem Delivers.run_eq {moved : FileTree} {url : String} {r : Response}
    (h : j.Delivers web t moved) (hurl : j.location = some url) (hr : web url = .answered r) :
    j.run web t = (moved, (percents (j.total r) 0 0 r.pieces).map (j.report .inProgress) ++
      [j.report .success 100]) := by
  obtain ⟨url', r', hurl', hr', hstatus, hstores⟩ := h
  obtain rfl : url = url' := Option.some.inj (hurl.symm.trans hurl')
  obtain rfl : r = r' := Exchange.answered.inj (hr.symm.trans hr')
  have hsuccess : r.isSuccess = true := by simpa [Response.isSuccess] using hstatus
  simp [run, fetch, hurl, hr, hsuccess, hstores.receive_eq, lastReport]

theorem Delivers.run {moved : FileTree} (h : j.Delivers web t moved) :
    j.Delivers web t (j.run web t).1 := by
  have ⟨_, _, hurl, hr, _⟩ := h
  rw [h.run_eq hurl hr]
  exact h

/-- The last report of a transfer that delivers its attachment is a success. -/
theorem Delivers.last {moved : FileTree} (h : j.Delivers web t moved) :
    (j.run web t).2.getLast? = some (j.report .success 100) := by
  have ⟨_, _, hurl, hr, _⟩ := h
  simp [h.run_eq hurl hr]

/-- What a transfer that delivers its attachment has told on the way. -/
theorem Delivers.progress {moved : FileTree} {url : String} {r : Response} {ps : List Nat}
    {last : Report} (h : j.Delivers web t moved) (hurl : j.location = some url)
    (hr : web url = .answered r)
    (htold : (j.run web t).2 = ps.map (j.report .inProgress) ++ [last]) :
    ps = percents (j.total r) 0 0 r.pieces := by
  rw [h.run_eq hurl hr] at htold
  have hmap := (List.append_inj_left' htold rfl).symm
  exact List.map_injective_iff.mpr (fun _ _ hp => congrArg Report.percent hp) hmap

theorem lastReport_of_failure {j : Job} (e : TransferError) :
    j.lastReport (some e) ≠ j.report .success 100 := by
  intro h
  exact e.status_isTerminal.2 (congrArg Report.status h)

theorem lastReport_isTerminal (j : Job) (failure : Option TransferError) :
    (j.lastReport failure).status.isTerminal = true := by
  cases failure with
  | none => rfl
  | some e => exact e.status_isTerminal.1

theorem total_eq (j : Job) (r : Response) :
    j.total r = (r.declared.filter (0 < ·)).getD j.size := by
  unfold total
  cases r.declared with
  | none => rfl
  | some n => by_cases hn : 0 < n <;> simp [Option.filter, hn]

end Job

/-- A transfer that is begun has found its record and has a directory to put the file in. -/
theorem beginTransfer_eq_ok {cache : Path} {lookup : Except StoreError (Option Attachment)}
    {t t' : FileTree} {account id : Int} {j : Job}
    (h : beginTransfer cache lookup t account id = .ok (t', j)) :
    ∃ a, lookup = .ok (some a) ∧ t.makeDirs (accountDir cache account) = some t' ∧
      j = ⟨a.message, id, a.size, a.location, attachmentPath cache account id⟩ := by
  unfold beginTransfer at h
  split at h
  · cases h
  · cases h
  next a =>
    split at h
    · cases h
    next t'' hdirs =>
      cases h
      exact ⟨a, rfl, hdirs, rfl⟩

/-- **The reports of a transfer that was begun**, whatever comes of the request and whatever the
file system does: progress that rises below one hundred, each time the share of the bytes that have
arrived, then one last report. That is a success exactly if the whole body of a successful answer
got to its place, and otherwise has the status of what went wrong. Before a success all shares have
been told that the body had on the way. -/
theorem beginTransfer_reports {cache : Path} {lookup : Except StoreError (Option Attachment)}
    {t t' : FileTree} {account id : Int} {j : Job}
    (hbegin : beginTransfer cache lookup t account id = .ok (t', j)) (web : String → Exchange) :
    ∃ (a : Attachment) (ps : List Nat) (last : Report), lookup = .ok (some a) ∧
      (j.run web t').2 = ps.map (⟨a.message, id, .inProgress, ·⟩) ++ [last] ∧
      ps.Pairwise (· < ·) ∧
      (∀ p ∈ ps, 1 ≤ p ∧ p ≤ 99 ∧
        ∃ url r arrived total, a.location = some url ∧ web url = .answered r ∧
          arrived <+: r.pieces ∧ total = (r.declared.filter (0 < ·)).getD a.size ∧ 0 < total ∧
          (100 * arrived.flatten.length < 2 ^ 64 →
            p = min 99 (100 * arrived.flatten.length / total))) ∧
      last.status.isTerminal = true ∧
      (last = ⟨a.message, id, .success, 100⟩ ↔ j.Delivers web t' (j.run web t').1) ∧
      (last ≠ ⟨a.message, id, .success, 100⟩ →
        ∃ e, j.Breaks web t' e ∧ last = ⟨a.message, id, e.status, 0⟩) ∧
      (last = ⟨a.message, id, .success, 100⟩ →
        ∀ url r, a.location = some url → web url = .answered r → ∀ p, p ∈ ps ↔
          1 ≤ p ∧ ∃ arrived total, arrived <+: r.pieces ∧
            total = (r.declared.filter (0 < ·)).getD a.size ∧ 0 < total ∧
            p = percentOf arrived.flatten.length total) := by
  obtain ⟨a, hrecord, -, rfl⟩ := beginTransfer_eq_ok hbegin
  set j : Job := ⟨a.message, id, a.size, a.location, attachmentPath cache account id⟩ with hj
  obtain ⟨ps, tree, failure, hrun, hprogress, hends⟩ := j.run_cases web t'
  refine ⟨a, ps, j.lastReport failure, hrecord, by rw [hrun]; rfl, ?_, fun p hp => ?_,
    j.lastReport_isTerminal failure, ?_, fun hfails => ?_, fun hsuccess url r hurl hr p => ?_⟩
  · rcases hprogress with rfl | ⟨url, r, written, -, -, -, rfl⟩
    · exact .nil
    · exact (percents_rising (j.total r) 0 0 written).of_cons
  · rcases hprogress with rfl | ⟨url, r, written, hurl, hr, hpre, rfl⟩
    · cases hp
    obtain ⟨htotal, hlow, arrived, harrived, rfl⟩ :=
      (mem_percents written (by simp [percentOf]) p).1 hp
    rw [Nat.zero_add] at hlow ⊢
    refine ⟨hlow, percentOf_le _ _, url, r, arrived, j.total r, hurl, hr,
      harrived.trans hpre, j.total_eq r, htotal, fun hsmall => percentOf_of_small hsmall⟩
  · rw [hrun]
    rcases hends with ⟨rfl, hdelivers⟩ | ⟨e, rfl, he⟩
    · exact iff_of_true rfl hdelivers
    · exact iff_of_false (Job.lastReport_of_failure e) fun hdelivers => hdelivers.not_breaks e he
  · rcases hends with ⟨rfl, -⟩ | ⟨e, rfl, he⟩
    · exact absurd rfl hfails
    · exact ⟨e, he, rfl⟩
  · rcases hends with ⟨rfl, hdelivers⟩ | ⟨e, rfl, -⟩
    · have htotal : j.total r = (r.declared.filter (0 < ·)).getD a.size := j.total_eq r
      rw [hdelivers.progress hurl hr (congrArg Prod.snd hrun),
        mem_percents _ (by simp [percentOf])]
      simp only [Nat.zero_add, ← htotal]
      constructor
      · rintro ⟨hpos, hlow, arrived, hpre, rfl⟩
        exact ⟨hlow, arrived, _, hpre, rfl, hpos, rfl⟩
      · rintro ⟨hlow, arrived, _, hpre, rfl, hpos, rfl⟩
        exact ⟨hpos, hlow, arrived, hpre, rfl⟩
    · exact absurd hsuccess (Job.lastReport_of_failure e)

/-- Three bytes in two pieces arrive for a record of four bytes, from a place that declares no
length, and reach their place: half of it is there, then three quarters, and the last report is a
success. -/
theorem beginTransfer_reports_delivered :
    let a : Attachment := { id := 5, message := 50, account := 1, size := 4, location := some "a" }
    let web : String → Exchange := fun _ => .answered ⟨200, none, [[1, 2], [3]], true⟩
    let t' : FileTree := FileTree.empty.set [Text.intText 1] .dir
    let j : Job := ⟨50, 5, 4, some "a", [Text.intText 1, Text.intText 5]⟩
    beginTransfer [] (.ok (some a)) .empty 1 5 = .ok (t', j) ∧
      (j.run web t').2 =
        [⟨50, 5, .inProgress, 50⟩, ⟨50, 5, .inProgress, 75⟩, ⟨50, 5, .success, 100⟩] ∧
      [50, 75].Pairwise (· < ·) := by
  intro a web t' j
  have hbegin : beginTransfer [] (.ok (some a)) .empty 1 5 = .ok (t', j) := rfl
  have hdir : ∀ p, p ≠ [] → (t'.isDir p = true ↔ p = [Text.intText 1]) := by
    intro p hp
    rw [FileTree.isDir, FileTree.get?_set .empty (by simp), FileTree.get?, if_neg hp]
    split_ifs with h <;> simp [h, FileTree.find, FileTree.empty]
  obtain ⟨moved, hstores⟩ : ∃ moved, j.Stores ⟨200, none, [[1, 2], [3]], true⟩ t' moved :=
    Job.stores_of_room (by simp [j]) ((hdir _ (by simp [j])).2 rfl)
      (by rw [← Bool.not_eq_true, hdir _ (by simp [j, partialPath])]; simp [j, partialPath])
      (by rw [← Bool.not_eq_true, hdir _ (by simp [j])]; simp [j]) rfl rfl
  have hdelivers : j.Delivers web t' moved := ⟨"a", _, rfl, rfl, by decide, hstores⟩
  obtain ⟨_, ps, last, hrecord, hreports, hrise, -, -, hlast, -⟩ := beginTransfer_reports hbegin web
  cases hrecord
  obtain rfl := hlast.2 hdelivers.run
  have hshares : ps = [50, 75] := by
    rw [hdelivers.progress rfl rfl hreports]
    have htotal : j.total ⟨200, none, [[1, 2], [3]], true⟩ = 4 := rfl
    simp [htotal, percents, percentOf]
  subst hshares
  exact ⟨hbegin, hreports, hrise⟩

end MailFetch

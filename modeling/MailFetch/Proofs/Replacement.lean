import Mathlib.Data.List.TakeWhile
import MailFetch.Proofs.TransferReports
import MailFetch.Scheduler.Perform

/-! # What a transfer leaves of the files

A transfer writes to a partial file beside the final one, and moves it into place when the whole
body is there. So whoever looks at the final path after a transfer finds the new file as a whole or
what was there before, whatever lies in the cache and whatever comes of the request.

* `FileTree.get?_makeDirs`, `FileTree.get?_removeFile`: what an operation leaves at each path.
* `Job.Receives`: a body is received. `Job.run_of_receives`, `Job.run_of_not_receives`: what a
  transfer comes to with it and without it.
* `Job.receive_of_failure`: a failure leaves no trace but the missing partial file.
* `Job.Replaces`: all that a transfer may do to the files. `beginTransfer_replaces`: no transfer
  does more, and one that is not begun does nothing.
* `Job.delivers_of_room`: a whole body gets to its place where there is room for it. -/

namespace MailFetch

/-! ### The name of the partial file -/

/-- A written number holds digits, and a minus sign if it is negative. -/
theorem Text.notMem_writeInt {c : Char} (hdigit : isDigit c = false) (hminus : c ≠ '-') (i : Int) :
    c ∉ writeInt i := by
  have hnat (n : Nat) : c ∉ writeNat n := by
    intro hc
    have hc' := List.all_eq_true.mp (all_isDigit_writeNat n) c hc
    rw [hdigit] at hc'
    cases hc'
  cases i with
  | ofNat n => exact hnat n
  | negSucc n =>
    rw [writeInt, List.mem_cons, not_or]
    exact ⟨hminus, hnat (n + 1)⟩

theorem Text.dot_notMem_writeInt (i : Int) : '.' ∉ writeInt i :=
  notMem_writeInt (by decide) (by decide) i

theorem Path.stem_of_notMem {name : List Char} (h : '.' ∉ name) : stem name = name := by
  have hall : name.reverse.takeWhile (· ≠ '.') = name.reverse := by
    rw [List.takeWhile_eq_self_iff]
    intro c hc
    have hne : c ≠ '.' := fun heq => h (heq ▸ List.mem_reverse.mp hc)
    simpa using hne
  have hlength : (name.reverse.takeWhile (· ≠ '.')).length = name.length := by
    rw [hall, List.length_reverse]
  unfold stem
  dsimp only
  rw [if_pos (.inl hlength)]

/-- Nothing below a directory is on the way to it. -/
theorem Path.append_not_prefix (p : Path) (name : String) : ¬ p ++ [name] <+: p := by
  intro h
  have hlength := h.length_le
  rw [List.length_append, List.length_singleton] at hlength
  omega

/-- The name of a number has no ending, so that another ending is put behind it. -/
theorem Path.withExtension_intText (i : Int) (ending : String) :
    withExtension (Text.intText i) ending =
      String.ofList (Text.writeInt i ++ '.' :: ending.toList) := by
  rw [withExtension, Text.intText, String.toList_ofList,
    stem_of_notMem (Text.dot_notMem_writeInt i)]

/-- A name with an ending is not the name of a number. -/
theorem Path.withExtension_intText_ne (i : Int) (ending : String) {j : Int} :
    withExtension (Text.intText i) ending ≠ Text.intText j := by
  intro h
  have hlist := congrArg String.toList h
  rw [withExtension_intText, Text.intText, String.toList_ofList, String.toList_ofList] at hlist
  exact Text.dot_notMem_writeInt j (hlist ▸ List.mem_append_right _ List.mem_cons_self)

theorem partialPath_attachmentPath (cache : Path) (account id : Int) :
    partialPath (attachmentPath cache account id) =
      accountDir cache account ++ [Path.withExtension (Text.intText id) "part"] := by
  simp [partialPath, attachmentPath]

/-! ### What the operations leave -/

namespace FileTree

variable {t t' : FileTree} {p q : Path}

theorem get?_removeFile (t : FileTree) (hp : p ≠ []) (q : Path) :
    (t.removeFile p).get? q = if q = p ∧ t.get? p ≠ some .dir then none else t.get? q := by
  unfold removeFile
  split
  next hdir => simp [hdir]
  next hdir =>
    rw [get?_erase t hp]
    have hfile : t.get? p ≠ some .dir := hdir
    simp [hfile]

/-- Where a file has been removed, no file is left. -/
theorem not_file_removeFile (t : FileTree) (hp : p ≠ []) (content : List UInt8) :
    (t.removeFile p).get? p ≠ some (.file content) := by
  rw [get?_removeFile t hp]
  split_ifs with h
  · simp
  · have hdir : t.get? p = some .dir := by simpa using h
    simp [hdir]

theorem get?_writeFile_of_ne {content : List UInt8} (h : t.writeFile p content = some t')
    (hq : q ≠ p) : t'.get? q = t.get? q := by
  unfold writeFile at h
  split_ifs at h with hp
  obtain rfl := Option.some.inj h
  rw [get?_set t hp.1, if_neg hq]

theorem get?_moveFile_of_ne {final : Path} (h : t.moveFile p final = some t')
    (hp : p ≠ []) (hq : q ≠ final) :
    t'.get? q = if q = p then none else t.get? q := by
  unfold moveFile at h
  split at h
  · split_ifs at h with hfinal
    obtain rfl := Option.some.inj h
    rw [get?_set _ hfinal.1, if_neg hq, get?_erase t hp]
  · cases h

/-- A directory is there, with all those that it lies in. -/
def Reaches (t : FileTree) (p : Path) : Prop := ∀ q, q <+: p → t.isDir q = true

/-- **A directory that has been made on the way** to a place, where nothing was before. -/
def Makes (before after : FileTree) (way q : Path) : Prop :=
  q <+: way ∧ before.get? q = none ∧ after.get? q = some .dir

/-- **What making directories leaves**: everything that was there, and the missing directories on
the way. -/
theorem get?_makeDirsFrom {base : Path} {names : List String}
    (h : t.makeDirsFrom base names = some t') (q : Path) :
    t'.get? q = t.get? q ∨ t.Makes t' (base ++ names) q := by
  induction names generalizing t base with
  | nil =>
    obtain rfl := Option.some.inj h
    exact .inl rfl
  | cons n rest ih =>
    have hway : base ++ n :: rest = base ++ [n] ++ rest := by simp
    rw [hway]
    unfold makeDirsFrom at h
    split at h
    · exact ih h
    · cases h
    next hnone =>
      have hset := get?_set t (p := base ++ [n]) (by simp) q .dir
      rcases ih h with hsame | ⟨hpre, hwas, his⟩
      · by_cases hq : q = base ++ [n]
        · rw [if_pos hq] at hset
          exact .inr ⟨hq ▸ List.prefix_append _ _, hq ▸ hnone, hsame.trans hset⟩
        · rw [if_neg hq] at hset
          exact .inl (hsame.trans hset)
      · rw [hset] at hwas
        split_ifs at hwas with hq
        exact .inr ⟨hpre, hwas, his⟩

theorem get?_makeDirs {way : Path} (h : t.makeDirs way = some t') (q : Path) :
    t'.get? q = t.get? q ∨ t.Makes t' way q :=
  get?_makeDirsFrom h q

/-- Once made, a directory is there. -/
theorem isDir_makeDirsFrom {base : Path} {names : List String} (hbase : t.isDir base = true)
    (h : t.makeDirsFrom base names = some t') : t'.isDir (base ++ names) = true := by
  induction names generalizing t base with
  | nil =>
    obtain rfl := Option.some.inj h
    simpa using hbase
  | cons n rest ih =>
    have hway : base ++ n :: rest = base ++ [n] ++ rest := by simp
    rw [hway]
    unfold makeDirsFrom at h
    split at h
    next hdir => exact ih (by simp [isDir, hdir]) h
    · cases h
    · exact ih (by simp [isDir, get?_set]) h

theorem isDir_makeDirs {way : Path} (h : t.makeDirs way = some t') : t'.isDir way = true :=
  @isDir_makeDirsFrom t t' [] way rfl h

/-- Below the last directory nothing is made. -/
theorem get?_makeDirs_below {way : Path} {name : String} (h : t.makeDirs way = some t') :
    t'.get? (way ++ [name]) = t.get? (way ++ [name]) := by
  rcases get?_makeDirs h (way ++ [name]) with hsame | hmade
  · exact hsame
  · exact absurd hmade.1 (Path.append_not_prefix way name)

theorem capacity_makeDirsFrom {base : Path} {names : List String}
    (h : t.makeDirsFrom base names = some t') : t'.capacity = t.capacity := by
  induction names generalizing t base with
  | nil =>
    obtain rfl := Option.some.inj h
    rfl
  | cons n rest ih =>
    unfold makeDirsFrom at h
    split at h
    · exact ih h
    · cases h
    · exact (ih h).trans rfl

/-- **Where directories cannot be made**, something else stands on the way. If all before the last
one are there, it stands at the last one, so that none has been made. -/
theorem obstacle_of_makeDirsFrom {base : Path} {names : List String} {last : String}
    (hthere : t.Reaches (base ++ names))
    (h : t.makeDirsFrom base (names ++ [last]) = none) :
    ∃ e, t.get? (base ++ names ++ [last]) = some e ∧ e ≠ .dir := by
  induction names generalizing base with
  | nil =>
    simp only [List.nil_append, makeDirsFrom] at h
    split at h
    · cases h
    next e hne he => exact ⟨e, by simpa using he, hne⟩
    · cases h
  | cons n rest ih =>
    have hway : base ++ n :: rest = base ++ [n] ++ rest := by simp
    rw [hway] at hthere ⊢
    have hdir : t.get? (base ++ [n]) = some .dir := by
      simpa [isDir] using hthere (base ++ [n]) (List.prefix_append _ _)
    rw [List.cons_append, makeDirsFrom, hdir] at h
    exact ih hthere h

theorem obstacle_of_makeDirs {way : Path} {last : String} (hthere : t.Reaches way)
    (h : t.makeDirs (way ++ [last]) = none) :
    ∃ e, t.get? (way ++ [last]) = some e ∧ e ≠ .dir := by
  rw [← List.nil_append way] at hthere ⊢
  exact obstacle_of_makeDirsFrom hthere h

/-- Where all before the last one are there, no other directory is made. -/
theorem Makes.eq_of_reaches {way : Path} {last : String} (h : t.Makes t' (way ++ [last]) q)
    (hthere : t.Reaches way) : q = way ++ [last] := by
  obtain ⟨hpre, hwas, -⟩ := h
  rcases List.prefix_concat_iff.mp hpre with heq | hbefore
  · exact heq
  · have hdir := hthere q hbefore
    simp [isDir, hwas] at hdir

end FileTree

/-! ### What a transfer leaves -/

namespace Job

variable {j : Job} {web : String → Exchange} {r : Response} {t : FileTree}

/-- **A body is received**: there is a location, and the answer from there is a success. -/
def Receives (j : Job) (web : String → Exchange) (r : Response) : Prop :=
  ∃ url, j.location = some url ∧ web url = .answered r ∧ r.isSuccess = true

theorem run_of_receives (h : j.Receives web r) (t : FileTree) :
    ∃ progress, j.run web t =
      ((j.receive r t).1, progress ++ [j.lastReport (j.receive r t).2.2]) := by
  obtain ⟨url, hurl, hweb, hsuccess⟩ := h
  exact ⟨(j.receive r t).2.1, by simp [run, hurl, hweb, fetch, hsuccess]⟩

/-- **Without a body** a transfer fails, and leaves all as it was. -/
theorem run_of_not_receives (h : ∀ r, ¬ j.Receives web r) (t : FileTree) :
    ∃ e, j.run web t = (t, [j.lastReport (some e)]) := by
  cases hurl : j.location with
  | none => exact ⟨.noLocation j.id, by simp only [run, hurl]⟩
  | some url =>
    cases hweb : web url with
    | noConnection => exact ⟨.network, by simp [run, hurl, hweb, fetch]⟩
    | answered r =>
      have hrefused : r.isSuccess = false := by
        rw [← Bool.not_eq_true]
        exact fun hsuccess => h r ⟨url, hurl, hweb, hsuccess⟩
      exact ⟨.http r.status, by simp [run, hurl, hweb, fetch, hrefused]⟩

/-- **A failure while a body is received** takes the partial file away from a tree in which nothing
else has changed. -/
theorem receive_of_failure {e : TransferError} (hpart : partialPath j.path ≠ [])
    (h : (j.receive r t).2.2 = some e) :
    ∃ filled : FileTree, (j.receive r t).1 = filled.removeFile (partialPath j.path) ∧
      ∀ q, q ≠ partialPath j.path → filled.get? q = t.get? q := by
  cases hcreate : t.writeFile (partialPath j.path) [] with
  | none => exact ⟨t, by simp only [receive, hcreate], fun _ _ => rfl⟩
  | some created =>
    have hfilled (q : Path) (hq : q ≠ partialPath j.path) :
        (created.appendPieces (partialPath j.path) r.pieces).1.get? q = t.get? q :=
      (FileTree.get?_appendPieces_of_ne hpart hq r.pieces).trans
        (FileTree.get?_writeFile_of_ne hcreate hq)
    refine ⟨_, ?_, hfilled⟩
    simp only [receive, hcreate] at h ⊢
    split_ifs at h ⊢ with hshort hcut
    · rfl
    · rfl
    · -- All of the body is there, so it cannot be moved.
      split at h
      · rfl
      · cases h

/-- **A body that gets to its place** has moved there from the partial file. -/
theorem Stores.left {moved : FileTree} (h : j.Stores r t moved) :
    r.complete = true ∧ moved.get? j.path = some (.file r.pieces.flatten) ∧
      ∀ q, q ≠ j.path →
        moved.get? q = if q = partialPath j.path then none else t.get? q := by
  obtain ⟨created, filled, hcreate, hfill, hcomplete, hmove⟩ := h
  obtain ⟨hpart, hempty⟩ := FileTree.writeFile_eq_some hcreate
  have hfull := FileTree.get?_appendPieces hpart hempty r.pieces
  have hkeep {q : Path} (hq : q ≠ partialPath j.path) : filled.get? q = t.get? q := by
    have hothers := FileTree.get?_appendPieces_of_ne (t := created) hpart hq r.pieces
    rw [hfill] at hothers
    exact hothers.trans (FileTree.get?_writeFile_of_ne hcreate hq)
  rw [hfill] at hfull
  refine ⟨hcomplete, FileTree.get?_moveFile hmove (by simpa using hfull), fun q hq => ?_⟩
  rw [FileTree.get?_moveFile_of_ne hmove hpart hq]
  split_ifs with hq'
  · rfl
  · exact hkeep hq'

/-- **All that a transfer may do to the files**, from the tree `before` to the tree `after` with a
last report. Its directory `way` is made if it was missing. -/
structure Replaces (j : Job) (web : String → Exchange) (way : Path) (before after : FileTree)
    (last : Report) : Prop where
  /-- After a success the whole body is at the final path, and no partial file is left. -/
  delivered : last.status = .success → ∃ r, j.Receives web r ∧ r.complete = true ∧
    after.get? j.path = some (.file r.pieces.flatten) ∧ after.get? (partialPath j.path) = none
  /-- After anything else the final path is as it was. -/
  kept : last.status ≠ .success → after.get? j.path = before.get? j.path
  /-- Without a body nothing is changed, not even a partial file of earlier. -/
  untouched : (∀ r, ¬ j.Receives web r) → last.status ≠ .success ∧
    ∀ q, after.get? q = before.get? q ∨ before.Makes after way q
  /-- After a body that failed no partial file is left. -/
  cleared : last.status ≠ .success → ∀ r, j.Receives web r → ∀ content,
    after.get? (partialPath j.path) ≠ some (.file content)
  /-- Elsewhere nothing is changed. -/
  elsewhere : ∀ q, q ≠ j.path → q ≠ partialPath j.path →
    after.get? q = before.get? q ∨ before.Makes after way q
  made : after.isDir way = true

section Replaces

variable {t' : FileTree} {way : Path} {name side : String}
variable (hfinal : j.path = way ++ [name]) (hpart : partialPath j.path = way ++ [side])
variable (hside : side ≠ name) (hmake : t.makeDirs way = some t')

include hfinal hmake in
/-- A transfer without a body. -/
theorem replaces_of_not_receives (hnone : ∀ r, ¬ j.Receives web r) (e : TransferError) :
    j.Replaces web way t t' (j.lastReport (some e)) where
  delivered hsuccess := absurd hsuccess e.status_isTerminal.2
  kept _ := by rw [hfinal, FileTree.get?_makeDirs_below hmake]
  untouched _ := ⟨e.status_isTerminal.2, FileTree.get?_makeDirs hmake⟩
  cleared _ r hr := absurd hr (hnone r)
  elsewhere q _ _ := FileTree.get?_makeDirs hmake q
  made := FileTree.isDir_makeDirs hmake

include hfinal hpart hside hmake in
/-- A transfer with a body that fails. -/
theorem replaces_of_failure {e : TransferError} (hbody : j.Receives web r)
    (hfails : (j.receive r t').2.2 = some e) :
    j.Replaces web way t (j.receive r t').1 (j.lastReport (some e)) := by
  have hne : partialPath j.path ≠ [] := by simp [hpart]
  obtain ⟨filled, hleft, hfilled⟩ := receive_of_failure hne hfails
  have hkeep {q : Path} (hq : q ≠ partialPath j.path) :
      (j.receive r t').1.get? q = t'.get? q := by
    rw [hleft, FileTree.get?_removeFile filled hne, if_neg fun h => hq h.1, hfilled q hq]
  have hpath : j.path ≠ partialPath j.path := by
    rw [hpart, hfinal]
    simpa using hside.symm
  have hway : way ≠ partialPath j.path := by simp [hpart]
  refine
    { delivered := fun hsuccess => absurd hsuccess e.status_isTerminal.2
      kept := fun _ => ?_
      untouched := fun hnone => absurd hbody (hnone r)
      cleared := fun _ _ _ content => ?_
      elsewhere := fun q _ hq => ?_
      made := ?_ }
  · rw [hkeep hpath, hfinal, FileTree.get?_makeDirs_below hmake]
  · rw [hleft]
    exact FileTree.not_file_removeFile filled hne content
  · unfold FileTree.Makes
    rw [hkeep hq]
    exact FileTree.get?_makeDirs hmake q
  · rw [FileTree.isDir, hkeep hway]
    exact FileTree.isDir_makeDirs hmake

include hfinal hpart hside hmake in
/-- A transfer with a body that gets to its place. -/
theorem replaces_of_stores {moved : FileTree} (hbody : j.Receives web r)
    (hstores : j.Stores r t' moved) : j.Replaces web way t moved (j.lastReport none) := by
  obtain ⟨hcomplete, hfile, hothers⟩ := hstores.left
  have hpath : partialPath j.path ≠ j.path := by
    rw [hpart, hfinal]
    simpa using hside
  have hkeep {q : Path} (hq : q ≠ j.path) (hq' : q ≠ partialPath j.path) :
      moved.get? q = t'.get? q := by
    rw [hothers q hq, if_neg hq']
  refine
    { delivered := fun _ => ⟨r, hbody, hcomplete, hfile, by rw [hothers _ hpath, if_pos rfl]⟩
      kept := fun hfails => absurd rfl hfails
      untouched := fun hnone => absurd hbody (hnone r)
      cleared := fun hfails => absurd rfl hfails
      elsewhere := fun q hq hq' => ?_
      made := ?_ }
  · unfold FileTree.Makes
    rw [hkeep hq hq']
    exact FileTree.get?_makeDirs hmake q
  · rw [FileTree.isDir, hkeep (by simp [hfinal]) (by simp [hpart])]
    exact FileTree.isDir_makeDirs hmake

include hfinal hpart hside hmake in
/-- **A transfer does to the files no more than it may**, whatever comes of the request and at
whatever step the file system refuses. -/
theorem replaces_run (web : String → Exchange) :
    ∃ last, (j.run web t').2.getLast? = some last ∧ last.status.isTerminal = true ∧
      j.Replaces web way t (j.run web t').1 last := by
  by_cases hbody : ∃ r, j.Receives web r
  · obtain ⟨r, hbody⟩ := hbody
    obtain ⟨progress, hrun⟩ := run_of_receives hbody t'
    obtain ⟨_, moved, failure, -, hreceive, hends⟩ := j.receive_cases r t'
    refine ⟨j.lastReport failure, by simp [hrun, hreceive], j.lastReport_isTerminal failure, ?_⟩
    rw [hrun]
    rcases hends with ⟨rfl, hstores⟩ | ⟨e, rfl, -⟩
    · rw [hreceive]
      exact replaces_of_stores hfinal hpart hside hmake hbody hstores
    · exact replaces_of_failure hfinal hpart hside hmake hbody (by rw [hreceive])
  · have hnone : ∀ r, ¬ j.Receives web r := not_exists.mp hbody
    obtain ⟨e, hrun⟩ := run_of_not_receives hnone t'
    refine ⟨j.lastReport (some e), by simp [hrun], j.lastReport_isTerminal _, ?_⟩
    rw [hrun]
    exact replaces_of_not_receives hfinal hmake hnone e

include hfinal hpart hmake in
/-- **Where there is room** a whole body gets to its place. -/
theorem delivers_of_room (hbody : j.Receives web r) (hcomplete : r.complete = true)
    (hroom : t.capacity = none) (hfree : t.isDir j.path = false)
    (hfree' : t.isDir (partialPath j.path) = false) :
    ∃ moved, j.Delivers web t' moved := by
  obtain ⟨url, hurl, hr, hsuccess⟩ := hbody
  have hkeep (last : String) : t'.isDir (way ++ [last]) = t.isDir (way ++ [last]) := by
    rw [FileTree.isDir, FileTree.get?_makeDirs_below hmake, FileTree.isDir]
  obtain ⟨moved, hstores⟩ := stores_of_room (r := r) (t := t') (j := j) (by simp [hfinal])
    (by simpa [hfinal] using FileTree.isDir_makeDirs hmake)
    (by rw [hpart, hkeep, ← hpart, hfree']) (by rw [hfinal, hkeep, ← hfinal, hfree])
    ((FileTree.capacity_makeDirsFrom hmake).trans hroom) hcomplete
  exact ⟨moved, url, r, hurl, hr, by simpa [Response.isSuccess] using hsuccess, hstores⟩

end Replaces

end Job

/-- The file system refuses a transfer only where it cannot make the account's directory. -/
theorem makeDirs_of_io {cache : Path} {lookup : Except StoreError (Option Attachment)}
    {t : FileTree} {account id : Int} {reason : String}
    (h : beginTransfer cache lookup t account id = .error (.io reason)) :
    t.makeDirs (accountDir cache account) = none := by
  unfold beginTransfer at h
  split at h
  · cases h
  · cases h
  · split at h
    · assumption
    · cases h

/-- **Transfers replace files as a whole.** Whatever lies in the cache, a transfer that is not begun
leaves the files as they are; where the account's directory cannot be made, something else stands in
its place. A transfer that is begun, whatever comes of the request and at whatever step the file
system refuses, does no more to the files than it may; and where the cache is there, it changes
nothing but the final path, the partial one and the account's directory. Where nothing is in the way
of its files and there is no limit to them, a whole body is a success. -/
theorem beginTransfer_replaces (cache : Path) (lookup : Except StoreError (Option Attachment))
    (t : FileTree) (account id : Int) :
    match beginTransfer cache lookup t account id with
    | .error e =>
      (∀ setup s r onward, s.world.carrier = .web t cache → s.world.attachment id = lookup →
        r.id = id → r.account = account →
        ((Errand.handOver r onward).perform setup s).state.world = s.world) ∧
      (∀ reason, e = .io reason → t.Reaches cache →
        ∃ obstacle, t.get? (accountDir cache account) = some obstacle ∧ obstacle ≠ .dir)
    | .ok (t', j) =>
      j.path = attachmentPath cache account id ∧
      ∀ web, ∃ last, (j.run web t').2.getLast? = some last ∧ last.status.isTerminal = true ∧
        j.Replaces web (accountDir cache account) t (j.run web t').1 last ∧
        (t.Reaches cache → ∀ q, q ≠ j.path → q ≠ partialPath j.path →
          q ≠ accountDir cache account → (j.run web t').1.get? q = t.get? q) ∧
        (t.capacity = none → t.isDir j.path = false → t.isDir (partialPath j.path) = false →
          ∀ r, j.Receives web r → r.complete = true → last.status = .success) := by
  cases hbegin : beginTransfer cache lookup t account id with
  | error e =>
    refine ⟨fun setup s r onward hfiles hlookup hid haccount => ?_, fun reason hio hthere => ?_⟩
    · subst hid haccount hlookup
      simp only [Errand.perform, Errand.doHandOver, hfiles, hbegin, State.note]
    · subst hio
      have hmake : t.makeDirs (accountDir cache account) = none := makeDirs_of_io hbegin
      exact FileTree.obstacle_of_makeDirs hthere hmake
  | ok begun =>
    obtain ⟨t', j⟩ := begun
    obtain ⟨a, -, hmake, hjob⟩ := beginTransfer_eq_ok hbegin
    have hfinal : j.path = attachmentPath cache account id := by rw [hjob]
    have hpart := partialPath_attachmentPath cache account id
    rw [← hfinal] at hpart
    refine ⟨hfinal, fun web => ?_⟩
    obtain ⟨last, hlast, hterminal, hreplaces⟩ := Job.replaces_run hfinal hpart
      (Path.withExtension_intText_ne id "part") hmake web
    refine ⟨last, hlast, hterminal, hreplaces, fun hthere q hq hq' hway => ?_,
      fun hroom hfree hfree' r hbody hcomplete => ?_⟩
    · rcases hreplaces.elsewhere q hq hq' with hsame | hmade
      · exact hsame
      · exact absurd (hmade.eq_of_reaches hthere) hway
    · obtain ⟨moved, hdelivers⟩ :=
        Job.delivers_of_room hfinal hpart hmake hbody hcomplete hroom hfree hfree'
      obtain rfl := Option.some.inj (hlast.symm.trans hdelivers.last)
      rfl

/-! ### A file that is fetched again -/

/-- A cache in which an attachment lies at its place, and beside it what an earlier attempt to fetch
it again has left. -/
def oldCache : FileTree where
  entries := [(accountDir [] 1, .dir), (attachmentPath [] 1 5, .file [9]),
    (partialPath (attachmentPath [] 1 5), .file [7])]

theorem get?_oldCache :
    oldCache.get? (accountDir [] 1) = some .dir ∧
    oldCache.get? (attachmentPath [] 1 5) = some (.file [9]) ∧
    oldCache.get? (partialPath (attachmentPath [] 1 5)) = some (.file [7]) := by
  have hname : Path.withExtension (Text.intText 5) "part" ≠ Text.intText 5 :=
    Path.withExtension_intText_ne 5 "part"
  simp only [oldCache, partialPath_attachmentPath]
  simp [FileTree.get?, FileTree.find, attachmentPath, accountDir, hname.symm]

/-- A transfer of the attachment that lies there. -/
def oldJob : Job := ⟨50, 5, 4, some "a", attachmentPath [] 1 5⟩

/-- An answer of three bytes in two pieces, from every location. -/
def threeBytes (status : Nat) (complete : Bool) : String → Exchange :=
  fun _ => .answered ⟨status, none, [[1, 2], [3]], complete⟩

/-- **An attachment that is there is fetched again.** When the whole body has arrived it lies in the
place of the old file, and the old partial file is gone. When the body is cut off the old file is
still there, and no partial one. When the answer is a refusal both are as they were. -/
theorem beginTransfer_replaces_old :
    let a : Attachment := { id := 5, message := 50, account := 1, size := 4, location := some "a" }
    let after (status : Nat) (complete : Bool) : FileTree :=
      (oldJob.run (threeBytes status complete) oldCache).1
    beginTransfer [] (.ok (some a)) oldCache 1 5 = .ok (oldCache, oldJob) ∧
    ((after 200 true).get? oldJob.path = some (.file [1, 2, 3]) ∧
      (after 200 true).get? (partialPath oldJob.path) = none) ∧
    ((after 200 false).get? oldJob.path = some (.file [9]) ∧
      ∀ content, (after 200 false).get? (partialPath oldJob.path) ≠ some (.file content)) ∧
    ((after 404 true).get? oldJob.path = some (.file [9]) ∧
      (after 404 true).get? (partialPath oldJob.path) = some (.file [7])) := by
  intro a after
  obtain ⟨hdir, hold, hstale⟩ := get?_oldCache
  have hbegin : beginTransfer [] (.ok (some a)) oldCache 1 5 = .ok (oldCache, oldJob) := by
    have hthere : oldCache.get? [Text.intText 1] = some .dir := hdir
    simp [beginTransfer, FileTree.makeDirs, FileTree.makeDirsFrom, accountDir, hthere, a, oldJob]
  have hreplaces := beginTransfer_replaces [] (.ok (some a)) oldCache 1 5
  rw [hbegin] at hreplaces
  obtain ⟨-, hreplaces⟩ := hreplaces
  refine ⟨hbegin, ?_, ?_, ?_⟩
  · obtain ⟨last, -, -, hends, -, hroom⟩ := hreplaces (threeBytes 200 true)
    have hsuccess : last.status = .success :=
      hroom rfl (by simp [FileTree.isDir, oldJob, hold]) (by simp [FileTree.isDir, oldJob, hstale])
        _ ⟨"a", rfl, rfl, rfl⟩ rfl
    obtain ⟨r, ⟨_, -, hr, -⟩, -, hfinal, hpart⟩ := hends.delivered hsuccess
    obtain rfl := Exchange.answered.inj hr
    exact ⟨hfinal, hpart⟩
  · obtain ⟨last, -, -, hends, -⟩ := hreplaces (threeBytes 200 false)
    have hfails : last.status ≠ .success := by
      intro hsuccess
      obtain ⟨r, ⟨_, -, hr, -⟩, hcomplete, -⟩ := hends.delivered hsuccess
      obtain rfl := Exchange.answered.inj hr
      cases hcomplete
    have hbody : oldJob.Receives (threeBytes 200 false) ⟨200, none, [[1, 2], [3]], false⟩ :=
      ⟨"a", rfl, rfl, rfl⟩
    exact ⟨(hends.kept hfails).trans hold, hends.cleared hfails _ hbody⟩
  · obtain ⟨last, -, -, hends, -⟩ := hreplaces (threeBytes 404 true)
    have hnone : ∀ r, ¬ oldJob.Receives (threeBytes 404 true) r := by
      rintro r ⟨_, -, hr, hsuccess⟩
      obtain rfl := Exchange.answered.inj hr
      cases hsuccess
    obtain ⟨hfails, hsame⟩ := hends.untouched hnone
    refine ⟨(hends.kept hfails).trans hold, ?_⟩
    rcases hsame (partialPath oldJob.path) with hsame | ⟨hway, -⟩
    · exact hsame.trans hstale
    · -- The partial file lies below the directory, where none is made.
      rw [oldJob, partialPath_attachmentPath] at hway
      exact absurd hway (Path.append_not_prefix _ _)

end MailFetch

import MailFetch.Proofs.Replacement

/-! # Every attachment has files of its own

An attachment goes to the place that is named by the numbers of its account and of itself, and its
partial file has the same name with an ending. Different numbers are written differently, and
without a dot. So no two attachments have a path in common, nobody's partial file is in the place of
a final one or of a directory, and a transfer of one attachment leaves the files of all others
alone.

* `Path.read_joined`: a name that is joined to a written path leads on from its place.
* `FileTree.get?_of_transfer`: what a transfer leaves at a path that is not its own.
* `files_apart`: the paths of two attachments, and what their transfers do to each other. -/

namespace MailFetch

theorem Text.writeInt_ne_nil (i : Int) : writeInt i ≠ [] := by
  cases i with
  | ofNat n => exact writeNat_ne_nil n
  | negSucc n => exact List.cons_ne_nil _ _

theorem Text.intText_inj {i j : Int} : intText i = intText j ↔ i = j := by
  rw [intText, intText, String.ofList_inj]
  exact ⟨writeInt_injective, congrArg writeInt⟩

/-! ### Written paths -/

namespace Path

theorem cut_ne_nil (l : List Char) : cut l ≠ [] := by
  fun_cases cut l <;> simp [*]

/-- What stands before a slash is cut by itself. -/
theorem cut_append_slash (l r : List Char) : cut (l ++ '/' :: r) = cut l ++ cut r := by
  induction l with
  | nil => simp [cut]
  | cons c rest ih =>
    obtain ⟨first, more, hrest⟩ := List.exists_cons_of_ne_nil (cut_ne_nil rest)
    by_cases hc : c = '/'
    · simp [cut, hc, ih]
    · simp [cut, hc, ih, hrest]

theorem cut_of_notMem {l : List Char} (h : '/' ∉ l) : cut l = [l] := by
  induction l with
  | nil => rfl
  | cons c rest ih =>
    rw [List.mem_cons, not_or] at h
    simp [cut, Ne.symm h.1, ih h.2]

theorem names_append_slash (s t : String) : names (s ++ "/" ++ t) = names s ++ names t := by
  simp [names, cut_append_slash]

theorem isAbsolute_append {s : String} (h : s ≠ "") (t : String) :
    isAbsolute (s ++ t) = isAbsolute s := by
  have hlist : s.toList ≠ [] := by simpa using h
  obtain ⟨c, rest, hs⟩ := List.exists_cons_of_ne_nil hlist
  simp [isAbsolute, hs]

/-- **A name that leads on**: it is of one piece, and it neither stays nor goes back. -/
structure LeadsOn (name : String) : Prop where
  whole : '/' ∉ name.toList
  moves : ¬ (name = "" ∨ name = ".")
  down : name ≠ ".."

namespace LeadsOn

variable {name : String}

theorem isAbsolute_eq (h : LeadsOn name) : isAbsolute name = false := by
  cases hlist : name.toList with
  | nil => simp [isAbsolute, hlist]
  | cons c rest =>
    have hc : c ≠ '/' := fun hc => h.whole (by simp [hlist, hc])
    simp [isAbsolute, hlist, hc]

theorem names_eq (h : LeadsOn name) : names name = [name] := by
  simp [names, cut_of_notMem h.whole]

/-- A name that leads on is the last step of a walk. -/
theorem walk_append (h : LeadsOn name) (start : Path) (way : List String) :
    walk start (way ++ [name]) = walk start way ++ [name] := by
  simp [walk, h.moves, h.down]

/-- What begins with a number leads on. -/
theorem of_writeInt (i : Int) {rest : List Char} (hrest : '/' ∉ rest) :
    LeadsOn (String.ofList (Text.writeInt i ++ rest)) := by
  obtain ⟨c, digits, hlist⟩ := List.exists_cons_of_ne_nil (Text.writeInt_ne_nil i)
  have hdot : c ≠ '.' := by
    rintro rfl
    exact Text.dot_notMem_writeInt i (hlist ▸ List.mem_cons_self)
  refine ⟨?_, ?_, ?_⟩
  · rw [String.toList_ofList, List.mem_append, not_or]
    exact ⟨Text.notMem_writeInt (by decide) (by decide) i, hrest⟩
  · simp [← String.toList_inj, hlist, hdot]
  · simp [← String.toList_inj, hlist, hdot]

theorem intText (i : Int) : LeadsOn (Text.intText i) := by
  have hnothing : '/' ∉ ([] : List Char) := List.not_mem_nil
  simpa [Text.intText] using of_writeInt i hnothing

theorem withExtension_intText (i : Int) {ending : String} (h : '/' ∉ ending.toList) :
    LeadsOn (withExtension (Text.intText i) ending) := by
  rw [Path.withExtension_intText]
  exact of_writeInt i (by simpa using h)

end LeadsOn

/-- **A name that is joined to a written path** leads on from the place that the path means. -/
theorem read_joined {name : String} (h : LeadsOn name) (workingDir : Path) (s : String) :
    read workingDir (joined s name) = read workingDir s ++ [name] := by
  unfold joined
  rw [h.isAbsolute_eq, if_neg Bool.false_ne_true]
  split_ifs with hempty hslash
  · subst hempty
    rw [read, h.isAbsolute_eq, h.names_eq]
    exact h.walk_append workingDir []
  · -- The slash is there already; without the name, an empty name stands behind it.
    obtain ⟨front, hfront⟩ := List.getLast?_eq_some_iff.mp hslash
    have hs : s = String.ofList front ++ "/" ++ "" := by
      rw [← String.toList_inj, hfront]
      simp
    have hstays (start : Path) (way : List String) : walk start (way ++ [""]) = walk start way := by
      simp [walk]
    rw [read, read, isAbsolute_append hempty]
    rw [hs, names_append_slash, String.append_empty, names_append_slash, h.names_eq, h.walk_append]
    congr 1
    exact (hstays _ _).symm
  · rw [read, read, names_append_slash, h.names_eq, String.append_assoc, isAbsolute_append hempty]
    exact h.walk_append _ _

/-- Numbers with the same ending are the same. -/
theorem withExtension_intText_inj {i j : Int} {ending : String} :
    withExtension (Text.intText i) ending = withExtension (Text.intText j) ending ↔ i = j := by
  rw [withExtension_intText, withExtension_intText, String.ofList_inj, List.append_cancel_right_eq]
  exact ⟨Text.writeInt_injective, congrArg Text.writeInt⟩

end Path

/-! ### The paths of an attachment -/

section Paths

variable {cache : Path} {a b i j : Int}

theorem attachmentPath_inj :
    attachmentPath cache a i = attachmentPath cache b j ↔ a = b ∧ i = j := by
  simp [attachmentPath, accountDir, Text.intText_inj]

theorem partialPath_inj : partialPath (attachmentPath cache a i) =
    partialPath (attachmentPath cache b j) ↔ a = b ∧ i = j := by
  simp [partialPath_attachmentPath, accountDir, Text.intText_inj, Path.withExtension_intText_inj]

theorem partialPath_ne_attachmentPath :
    partialPath (attachmentPath cache a i) ≠ attachmentPath cache b j := by
  rw [partialPath_attachmentPath]
  simp [attachmentPath, accountDir, Path.withExtension_intText_ne]

theorem partialPath_ne_accountDir : partialPath (attachmentPath cache a i) ≠ accountDir cache b := by
  simp [partialPath_attachmentPath, accountDir]

/-- Whatever lies in the directory of an account is not on the way to one. -/
theorem not_prefix_accountDir (name : String) :
    ¬ accountDir cache a ++ [name] <+: accountDir cache b := by
  intro h
  have hlength := h.length_le
  simp [accountDir] at hlength

end Paths

/-- **What a transfer leaves** at a path that is not its own and not on the way to its directory:
whatever was there. -/
theorem FileTree.get?_of_transfer {cache : Path} {lookup : Except StoreError (Option Attachment)}
    {t t' : FileTree} {account id : Int} {job : Job} {q : Path}
    (h : beginTransfer cache lookup t account id = .ok (t', job)) (web : String → Exchange)
    (hfinal : q ≠ attachmentPath cache account id)
    (hpart : q ≠ partialPath (attachmentPath cache account id))
    (hway : ¬ q <+: accountDir cache account) : (job.run web t').1.get? q = t.get? q := by
  obtain ⟨a, -, hmake, rfl⟩ := beginTransfer_eq_ok h
  have hside := partialPath_attachmentPath cache account id
  obtain ⟨last, -, -, hreplaces⟩ := Job.replaces_run
    (j := ⟨a.message, id, a.size, a.location, attachmentPath cache account id⟩) rfl hside
    (Path.withExtension_intText_ne id "part") hmake web
  rcases hreplaces.elsewhere q hfinal hpart with hsame | hmade
  · exact hsame
  · exact absurd hmade.1 hway

/-- **No two attachments share a file.** In every cache, and for all numbers of accounts and
attachments: the final paths are equal only for one attachment of one account, and so are the
partial paths; no partial path is a final path or the directory of an account. However the cache is
written, the joined paths mean these places. So a transfer of one attachment, whatever comes of it,
leaves the files of any other as they were. -/
theorem files_apart (cache : Path) (a b i j : Int) :
    (attachmentPath cache a i = attachmentPath cache b j ↔ a = b ∧ i = j) ∧
      (partialPath (attachmentPath cache a i) = partialPath (attachmentPath cache b j) ↔
        a = b ∧ i = j) ∧
      partialPath (attachmentPath cache a i) ≠ attachmentPath cache b j ∧
      partialPath (attachmentPath cache a i) ≠ accountDir cache b ∧
      (∀ workingDir written, Path.read workingDir written = cache →
        let dir := Path.joined written (Text.intText a)
        Path.read workingDir (Path.joined dir (Text.intText i)) = attachmentPath cache a i ∧
        Path.read workingDir (Path.joined dir (Path.withExtension (Text.intText i) "part")) =
          partialPath (attachmentPath cache a i)) ∧
      (¬ (a = b ∧ i = j) → ∀ lookup t t' job web,
        beginTransfer cache lookup t a i = .ok (t', job) →
        ∀ q ∈ [attachmentPath cache b j, partialPath (attachmentPath cache b j)],
          (job.run web t').1.get? q = t.get? q) := by
  refine ⟨attachmentPath_inj, partialPath_inj, partialPath_ne_attachmentPath,
    partialPath_ne_accountDir, ?_, ?_⟩
  · rintro workingDir written rfl
    have hending : Path.LeadsOn (Path.withExtension (Text.intText i) "part") :=
      .withExtension_intText i (by decide)
    dsimp only
    rw [Path.read_joined (.intText i), Path.read_joined hending, Path.read_joined (.intText a)]
    exact ⟨rfl, (partialPath_attachmentPath _ a i).symm⟩
  · intro hother lookup t t' job web hbegin q hq
    have hne : ¬ (b = a ∧ j = i) := fun h => hother ⟨h.1.symm, h.2.symm⟩
    rcases List.mem_cons.mp hq with rfl | hq
    · exact FileTree.get?_of_transfer hbegin web (mt attachmentPath_inj.mp hne)
        partialPath_ne_attachmentPath.symm (not_prefix_accountDir _)
    · obtain rfl := List.mem_singleton.mp hq
      refine FileTree.get?_of_transfer hbegin web partialPath_ne_attachmentPath
        (mt partialPath_inj.mp hne) ?_
      rw [partialPath_attachmentPath]
      exact not_prefix_accountDir _

/-- An attachment of the first account. -/
def twentyThird : Attachment := { id := 23, message := 10, account := 1, location := some "a" }

/-- A cache in which a partial file of attachment 3 of account 12 has been left. -/
def staleCache : FileTree where
  entries := [(accountDir [] 12, .dir), (partialPath (attachmentPath [] 12 3), .file [7])]

/-- Attachment 23 of account 1 and attachment 3 of account 12 are named by the same digits in a row.
Whatever comes of a transfer of the one, it leaves a stale partial file of the other alone. -/
theorem files_apart_same_digits : ∃ t' job,
    beginTransfer [] (.ok (some twentyThird)) staleCache 1 23 = .ok (t', job) ∧
      ∀ web, (job.run web t').1.get? (partialPath (attachmentPath [] 12 3)) = some (.file [7]) := by
  obtain ⟨-, -, -, -, -, hfiles⟩ := files_apart [] 1 12 23 3
  have hnone : staleCache.get? [Text.intText 1] = none := by
    simp [staleCache, FileTree.get?, FileTree.find, accountDir, partialPath_attachmentPath,
      Text.intText_inj]
  have hmake : staleCache.makeDirs (accountDir [] 1) =
      some (staleCache.set [Text.intText 1] .dir) := by
    simp [FileTree.makeDirs, FileTree.makeDirsFrom, accountDir, hnone]
  have hbegin : beginTransfer [] (.ok (some twentyThird)) staleCache 1 23 =
      .ok (staleCache.set [Text.intText 1] .dir,
        ⟨10, 23, 0, some "a", attachmentPath [] 1 23⟩) := by
    rw [beginTransfer, hmake]
    rfl
  have hstale : staleCache.get? (partialPath (attachmentPath [] 12 3)) = some (.file [7]) := by
    simp [staleCache, FileTree.get?, FileTree.find, accountDir, partialPath_attachmentPath]
  exact ⟨_, _, hbegin, fun web =>
    (hfiles (by decide) _ _ _ _ web hbegin _ (.tail _ (.head _))).trans hstale⟩

end MailFetch

import MailFetch.Files.Path

/-! # File trees

A file tree holds regular files, directories and symbolic links by their paths. The operations
that change it fail where a file system would refuse them: nothing lies below a file, a directory
is neither overwritten nor replaced by a file, and there may be no room for more bytes.

* `get?_set`, `get?_erase`: what a change does to the entry at each path. -/

namespace MailFetch

/-- What lies at a path. -/
inductive Entry
  | file (content : List UInt8)
  | dir
  | link (target : String)
deriving DecidableEq, Inhabited

/-- The bytes that an entry takes. -/
def Entry.size : Entry → Nat
  | file content => content.length
  | _ => 0

/-- **The files below a directory.** The directory itself has the empty path. -/
structure FileTree where
  entries : List (Path × Entry) := []
  /-- How many bytes the files can take together, if there is a limit. -/
  capacity : Option Nat := none
deriving DecidableEq, Inhabited

namespace FileTree

/-- The tree of an empty directory. -/
def empty : FileTree := {}

/-- The entry for a path in a list of entries. -/
def find (p : Path) : List (Path × Entry) → Option Entry
  | [] => none
  | e :: rest => if e.1 = p then some e.2 else find p rest

/-- What lies at a path. -/
def get? (t : FileTree) (p : Path) : Option Entry := if p = [] then some .dir else find p t.entries

/-- The tree with an entry in place of what lay at its path. -/
def set (t : FileTree) (p : Path) (e : Entry) : FileTree :=
  { t with entries := (p, e) :: t.entries.filter fun x => x.1 ≠ p }

/-- The tree without what lay at a path. -/
def erase (t : FileTree) (p : Path) : FileTree :=
  { t with entries := t.entries.filter fun x => x.1 ≠ p }

theorem find_filter (p q : Path) (l : List (Path × Entry)) :
    find q (l.filter fun x => x.1 ≠ p) = if q = p then none else find q l := by
  induction l with
  | nil => simp [find]
  | cons a rest ih =>
    by_cases hap : a.1 = p
    · rw [List.filter_cons_of_neg (by simpa using hap), ih]
      by_cases h : q = p
      · simp [h]
      · have : ¬ a.1 = q := fun e => h (e ▸ hap)
        simp [find, h, this]
    · rw [List.filter_cons_of_pos (by simpa using hap)]
      by_cases h : q = p
      · subst h
        simp only [find, hap, if_false, ih, if_true]
      · simp only [find, ih, h, if_false]

theorem get?_set (t : FileTree) {p : Path} (hp : p ≠ []) (q : Path) (e : Entry) :
    (t.set p e).get? q = if q = p then some e else t.get? q := by
  by_cases hq : q = []
  · subst hq
    simp [get?, Ne.symm hp]
  · simp only [get?, hq, if_false, set, find, find_filter]
    by_cases h : q = p
    · simp [h]
    · simp [h, Ne.symm h]

theorem get?_erase (t : FileTree) {p : Path} (hp : p ≠ []) (q : Path) :
    (t.erase p).get? q = if q = p then none else t.get? q := by
  by_cases hq : q = []
  · subst hq
    simp [get?, Ne.symm hp]
  · simp only [get?, hq, if_false, erase, find_filter]

/-- Whether a directory lies at a path. -/
def isDir (t : FileTree) (p : Path) : Bool := t.get? p == some .dir

/-- Whether anything lies at a path. -/
def contains (t : FileTree) (p : Path) : Bool := (t.get? p).isSome

/-- Make the missing directories on the way from `base` through `names`; none is made where a
file stands in the way. -/
def makeDirsFrom (t : FileTree) (base : Path) : List String → Option FileTree
  | [] => some t
  | n :: rest =>
    match t.get? (base ++ [n]) with
    | some .dir => makeDirsFrom t (base ++ [n]) rest
    | some _ => none
    | none => makeDirsFrom (t.set (base ++ [n]) .dir) (base ++ [n]) rest

/-- Make a directory and the missing ones on the way to it. -/
def makeDirs (t : FileTree) (p : Path) : Option FileTree := t.makeDirsFrom [] p

/-- Make the directories that a written path goes through, seen from a place: each missing one on
the way is made, also if the path goes back from it. -/
def makeWay (t : FileTree) (place : Path) : List String → Option FileTree
  | [] => some t
  | n :: rest =>
    if n = "" ∨ n = "." then makeWay t place rest
    else if n = ".." then makeWay t place.dropLast rest
    else
      match t.get? (place ++ [n]) with
      | some .dir => makeWay t (place ++ [n]) rest
      | some _ => none
      | none => makeWay (t.set (place ++ [n]) .dir) (place ++ [n]) rest

/-- The text in a file, if it is one. -/
def readText (t : FileTree) (p : Path) : Option String :=
  match t.get? p with
  | some (.file content) => String.fromUTF8? ⟨content.toArray⟩
  | _ => none

/-- Write a file, in place of one that stands there; its directory has to exist. -/
def writeFile (t : FileTree) (p : Path) (content : List UInt8) : Option FileTree :=
  if p ≠ [] ∧ t.isDir p.dropLast ∧ ¬ t.isDir p then some (t.set p (.file content)) else none

/-- Whether the files can take so many bytes more. -/
def fits (t : FileTree) (bytes : Nat) : Bool :=
  match t.capacity with
  | some n => (t.entries.map fun e => e.2.size).foldl (· + ·) bytes ≤ n
  | none => true

/-- Write on at the end of a file, if there is room for it. -/
def appendFile (t : FileTree) (p : Path) (more : List UInt8) : Option FileTree :=
  match t.get? p with
  | some (.file content) =>
    if t.fits more.length then some (t.set p (.file (content ++ more))) else none
  | _ => none

/-- Write pieces at the end of a file, one after another and as long as there is room. The answer
is the tree and the pieces that were written. -/
def appendPieces (t : FileTree) (p : Path) : List (List UInt8) → FileTree × List (List UInt8)
  | [] => (t, [])
  | piece :: rest =>
    match t.appendFile p piece with
    | none => (t, [])
    | some t =>
      let (t, written) := t.appendPieces p rest
      (t, piece :: written)

/-- Move a file, in place of one that stands at the new path. -/
def moveFile (t : FileTree) (p q : Path) : Option FileTree :=
  match t.get? p with
  | some (.file content) =>
    if q ≠ [] ∧ t.isDir q.dropLast ∧ ¬ t.isDir q then some ((t.erase p).set q (.file content))
    else none
  | _ => none

/-- Remove a file; directories stay. -/
def removeFile (t : FileTree) (p : Path) : FileTree :=
  match t.get? p with
  | some .dir => t
  | _ => t.erase p

/-- Whether the first path comes before the second, name by name, a directory before what it
holds. -/
def pathLe : Path → Path → Bool
  | [], _ => true
  | _ :: _, [] => false
  | a :: p, b :: q => a < b || (a == b && pathLe p q)

/-- All entries, ordered by name in each directory, a directory before what it holds. -/
def listing (t : FileTree) : List (Path × Entry) :=
  t.entries.mergeSort fun a b => pathLe a.1 b.1

end FileTree

end MailFetch

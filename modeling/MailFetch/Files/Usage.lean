import MailFetch.Files.Tree

/-! # Disk usage

How many bytes the regular files of a directory hold. Symbolic links inside are neither counted
nor followed, but the directory itself may be reached by one. A directory whose full path is too
long for the system cannot be opened, so it is passed over with all it holds. -/

namespace MailFetch

/-- The length in bytes of a path below a place whose own path has `base` bytes. -/
def Path.byteLength (base : Nat) (p : Path) : Nat :=
  p.foldl (fun n name => n + 1 + name.utf8ByteSize) base

/-- The longest path that the system opens, in bytes. -/
def Path.longest : Nat := 4095

namespace FileTree

/-- Follow the symbolic links on the way from `place` through `names`, at most `fuel` of them. -/
def follow (t : FileTree) (fuel : Nat) (place : Path) : List String → Option Path
  | [] => some place
  | n :: rest =>
    if n = "" ∨ n = "." then follow t fuel place rest
    else if n = ".." then follow t fuel place.dropLast rest
    else
      match t.get? (place ++ [n]) with
      | none => none
      | some (.link target) =>
        match fuel with
        | 0 => none
        | fuel + 1 =>
          if Path.isAbsolute target then none
          else follow t fuel place (Path.names target ++ rest)
      | some .dir => follow t fuel (place ++ [n]) rest
      | some (.file _) => if rest = [] then some (place ++ [n]) else none
termination_by names => (fuel, names.length)

/-- How many links may be followed on one way. -/
def maxLinks : Nat := 40

/-- The bytes in the files below the directory `dir`, of which the full path has `base` bytes. -/
def bytesUnder (t : FileTree) (base : Nat) (dir : Path) : Nat :=
  (t.entries.filterMap fun e =>
    match e.2 with
    | .file content =>
      if dir.isPrefixOf e.1 && e.1 ≠ dir &&
          Path.byteLength base (e.1.drop dir.length).dropLast ≤ Path.longest then
        some content.length
      else none
    | _ => none).foldl (· + ·) 0

/-- **The bytes stored at a path** of a tree whose own path has `root` bytes. -/
def usage (t : FileTree) (root : Nat) (p : Path) : Nat :=
  match t.get? p with
  | none => 0
  | some (.file content) => content.length
  | some .dir => t.bytesUnder (Path.byteLength root p) p
  | some (.link _) =>
    match t.follow maxLinks [] p with
    | some q => if t.isDir q then t.bytesUnder (Path.byteLength root p) q else 0
    | none => 0

end FileTree

end MailFetch

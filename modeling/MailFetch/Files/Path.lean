/-! # Paths

A path is the list of the names on the way to a file or directory. A written path is read against
the working directory unless it starts at the top.

* `withExtension` gives a name another ending: what follows the last dot is replaced, unless the
  dot is the first character, and a name without a dot gets one. -/

namespace MailFetch

/-- The names on the way to a file or directory. -/
abbrev Path := List String

namespace Path

/-- Cut a text at every slash. -/
def cut : List Char → List (List Char)
  | [] => [[]]
  | c :: rest =>
    if c = '/' then [] :: cut rest
    else
      match cut rest with
      | [] => [[c]]
      | p :: more => (c :: p) :: more

/-- Go on from a place by the names of a written path; `.` stays and `..` goes back. -/
def walk (start : Path) (names : List String) : Path :=
  names.foldl
    (fun place n =>
      if n = "" ∨ n = "." then place else if n = ".." then place.dropLast else place ++ [n])
    start

/-- Whether a written path starts at the top. -/
def isAbsolute (s : String) : Bool := s.toList.head? == some '/'

/-- The names in a written path. -/
def names (s : String) : List String := (cut s.toList).map String.ofList

/-- **The place that a written path means**, seen from the working directory. -/
def read (workingDir : Path) (s : String) : Path :=
  walk (if isAbsolute s then [] else workingDir) (names s)

/-- A written path with a further part. -/
def joined (s part : String) : String :=
  if isAbsolute part then part
  else if s = "" then part
  else if s.toList.getLast? = some '/' then s ++ part
  else s ++ "/" ++ part

/-- The part of a name before its ending. -/
def stem (name : List Char) : List Char :=
  let tail := name.reverse.takeWhile (· ≠ '.')
  let start := name.take (name.length - (tail.length + 1))
  if tail.length = name.length ∨ start = [] then name else start

/-- The name with another ending. -/
def withExtension (name ending : String) : String :=
  String.ofList (stem name.toList ++ '.' :: ending.toList)

end Path

end MailFetch

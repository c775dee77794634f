import MailFetch.Data.Node
import MailFetch.Decimal.Layout

/-! # Writing JSON

A tree of data is written with one scalar to a line, and two spaces more for each level.

* `quoted` writes a text, `write` a whole tree. -/

namespace MailFetch.Json

open MailFetch.Data (Node Scalar)

/-- A character between quotes. -/
def escaped (c : Char) : List Char :=
  match c with
  | '"' => ['\\', '"']
  | '\\' => ['\\', '\\']
  | '\n' => ['\\', 'n']
  | '\r' => ['\\', 'r']
  | '\t' => ['\\', 't']
  | '\x08' => ['\\', 'b']
  | '\x0c' => ['\\', 'f']
  | c =>
    if c < ' ' then
      ['\\', 'u', '0', '0', Nat.digitChar (c.toNat / 16), Nat.digitChar (c.toNat % 16)]
    else [c]

/-- A text. -/
def quoted (s : String) : String := String.ofList ('"' :: s.toList.flatMap escaped ++ ['"'])

/-- A number that need not be whole has a point in front of sixteen digits or behind four zeros at
most. -/
def numbers : Decimal.Layout := ⟨-4, 16⟩

/-- A scalar; what is no number is null. -/
def scalarText : Scalar → String
  | .null => "null"
  | .bool b => if b then "true" else "false"
  | .int i => Text.intText i
  | .float x => if x.isFinite then numbers.finite x else "null"
  | .text s | .plain s => quoted s

/-- Put a text in front of the first line. -/
def led (start : String) : List String → List String
  | [] => [start]
  | l :: rest => (start ++ l) :: rest

/-- Put a comma behind the last line. -/
def withComma : List String → List String
  | [] => []
  | [l] => [l ++ ","]
  | l :: rest => l :: withComma rest

/-- Set a line further to the right. -/
def indented (s : String) : String := "  " ++ s

/-- The text of a key. -/
def keyText : Node → String
  | .scalar (.text s) => quoted s
  | .scalar s => quoted (scalarText s)
  | _ => quoted ""

mutual

/-- The lines of a tree. -/
def lines : Node → List String
  | .scalar s => [scalarText s]
  | .list [] => ["[]"]
  | .list (n :: rest) => "[" :: (itemLines (n :: rest)).map indented ++ ["]"]
  | .map [] => ["\x7b\x7d"]
  | .map (e :: rest) => "\x7b" :: (entryLines (e :: rest)).map indented ++ ["\x7d"]

/-- The lines of the items of a list, with commas between them. -/
def itemLines : List Node → List String
  | [] => []
  | [n] => lines n
  | n :: m :: rest => withComma (lines n) ++ itemLines (m :: rest)

/-- The lines of the entries of a map, with commas between them. -/
def entryLines : List (Node × Node) → List String
  | [] => []
  | [(k, v)] => led (keyText k ++ ": ") (lines v)
  | (k, v) :: e :: rest => withComma (led (keyText k ++ ": ") (lines v)) ++ entryLines (e :: rest)

end

/-- **Write a tree**, without an end of the last line. -/
def write (n : Node) : String := "\n".intercalate (lines n)

end MailFetch.Json

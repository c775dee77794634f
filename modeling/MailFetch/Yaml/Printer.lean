import MailFetch.Data.Node
import MailFetch.Decimal.Layout
import MailFetch.Yaml.Place

/-! # Writing YAML

A tree of data is written in blocks. A text is written plainly where it reads back as the same
text; otherwise between single quotes, or between double quotes if it has characters that cannot be
seen; over several lines it is written line by line.

* `styleOf` chooses the style of a text, `write` writes a document. -/

namespace MailFetch.Yaml

open MailFetch.Data (Node Scalar Numeral.isNull Numeral.truth Numeral.natural Numeral.integer
  Numeral.real)

/-- How a text is written. -/
inductive Style
  | plain
  | single
  | double
  /-- Line by line. -/
  | literal
deriving DecidableEq, Inhabited

/-- Whether a character can be seen, or ends a line. -/
def isPrintable (c : Char) : Bool :=
  c = '\n' || (' ' ≤ c && c ≤ '~') || ('\u00a0' ≤ c && c ≤ '\ufffd' && c ≠ '\ufeff') ||
    0x10000 ≤ c.toNat

/-- Whether a plain scalar of this text would not be read as a text. -/
def readsOtherwise (s : String) : Bool :=
  let cs := s.toList
  let unsigned := match cs with
    | '-' :: rest | '+' :: rest => rest
    | cs => cs
  Numeral.isNull s || (Numeral.truth s).isSome ||
    (Numeral.natural cs).any (· < 1 <<< 128) ||
    (Numeral.integer cs).any (fun i => i < 0 ∧ i.natAbs ≤ 1 <<< 127) ||
    (unsigned.length > 1 && unsigned.head? = some '0' && unsigned.all Text.isDigit) ||
    (Numeral.real cs).isSome

/-- Whether a sign of the format stands where it would be read as such, given the character
before it, if any. -/
def hasSign (before : Option Char) : List Char → Bool
  | [] => false
  | c :: rest =>
    let first := before.isNone
    let afterBlank := before.all fun b => isBlank b || isBreak b
    (first && c ∈ ['#', ',', '[', ']', '\x7b', '\x7d', '&', '*', '!', '|', '>', '\'', '"', '%', '@',
        '\x60']) ||
      (first && (c = '?' || c = '-') && endsWord rest) ||
      (c = ':' && endsWord rest) || (c = '#' && afterBlank) || hasSign (some c) rest

/-- Whether the text starts like the mark of a document's start or end. -/
def startsLikeMark (s : List Char) : Bool :=
  s.take 3 = ['-', '-', '-'] || s.take 3 = ['.', '.', '.']

/-- Whether a text may be written plainly. -/
def allowsPlain (s : List Char) : Bool :=
  s.all isPrintable && !s.any isBreak && s.head? ≠ some ' ' && s.getLast? ≠ some ' ' &&
    !hasSign none s && !startsLikeMark s

/-- Whether a space stands before the end of a line. -/
def hasSpaceBeforeBreak : List Char → Bool
  | [] => false
  | c :: rest => (c = ' ' && rest.head?.any isBreak) || hasSpaceBeforeBreak rest

/-- Whether a text may be written line by line. -/
def allowsLiteral (s : List Char) : Bool :=
  s.all isPrintable && s.getLast? ≠ some ' ' && !hasSpaceBeforeBreak s

/-- **The style in which a text is written.** -/
def styleOf (s : String) : Style :=
  let cs := s.toList
  if '\n' ∈ cs then if allowsLiteral cs then .literal else .double
  else if !readsOtherwise s && allowsPlain cs then .plain
  else if cs.all isPrintable then .single
  else .double

/-- The hexadecimal digits of a code, the last `width` of them. -/
def hexDigits (width n : Nat) : List Char :=
  (List.range width).map fun i => (Nat.digitChar ((n >>> (4 * (width - 1 - i))) % 16)).toUpper

/-- A character between double quotes. -/
def doubleQuoted (c : Char) : List Char :=
  match c with
  | '\x00' => ['\\', '0']
  | '\x07' => ['\\', 'a']
  | '\x08' => ['\\', 'b']
  | '\t' => ['\\', 't']
  | '\n' => ['\\', 'n']
  | '\x0b' => ['\\', 'v']
  | '\x0c' => ['\\', 'f']
  | '\r' => ['\\', 'r']
  | '\x1b' => ['\\', 'e']
  | '"' => ['\\', '"']
  | '\\' => ['\\', '\\']
  | '\u0085' => ['\\', 'N']
  | '\u2028' => ['\\', 'L']
  | '\u2029' => ['\\', 'P']
  | c =>
    if isPrintable c then [c]
    else if c.toNat < 0x100 then '\\' :: 'x' :: hexDigits 2 c.toNat
    else if c.toNat < 0x10000 then '\\' :: 'u' :: hexDigits 4 c.toNat
    else '\\' :: 'U' :: hexDigits 8 c.toNat

/-- The lines of a text, of which the last one is left out if it is empty. -/
def textLines (s : String) : List String :=
  let lines := s.splitOn "\n"
  if lines.getLast? = some "" then lines.dropLast else lines

/-- The sign in front of a text that is written line by line: whether it starts with a space or
an empty line, and which ends of lines it has at its end. -/
def literalSign (s : List Char) : String :=
  let start := if s.head?.any fun c => c = ' ' || isBreak c then "2" else ""
  let tail := match s.reverse with
    | '\n' :: [] => "+"
    | '\n' :: '\n' :: _ => "+"
    | '\n' :: _ => ""
    | _ => "-"
  "|" ++ start ++ tail

/-- A text between single quotes, in which a quote is written twice. -/
def singleQuoted (s : String) : String :=
  String.ofList ('\'' :: s.toList.flatMap (fun c => if c = '\'' then [c, c] else [c]) ++ ['\''])

/-- A text: its first line, and those that follow. -/
def textBlock (s : String) : List String :=
  match styleOf s with
  | .plain => [s]
  | .single => [singleQuoted s]
  | .double => [String.ofList ('"' :: s.toList.flatMap doubleQuoted ++ ['"'])]
  | .literal => literalSign s.toList :: textLines s

/-- A number that need not be whole has a point in front of sixteen digits or behind four zeros at
most. -/
def numbers : Decimal.Layout := ⟨-4, 16⟩

/-- A number that need not be whole. -/
def floatText (x : Float) : String :=
  if x.isNaN then ".nan"
  else if x.isInf then if x < 0 then "-.inf" else ".inf"
  else numbers.finite x

/-- A scalar. -/
def scalarBlock : Scalar → List String
  | .null => ["null"]
  | .bool b => [if b then "true" else "false"]
  | .int i => [Text.intText i]
  | .float x => [floatText x]
  | .text s => textBlock s
  | .plain s => [s]

/-- Set a line further to the right, if there is anything in it. -/
def indented (s : String) : String := if s = "" then s else "  " ++ s

/-- Put a text in front of the first line, and set the others further to the right. -/
def hung (start : String) : List String → List String
  | [] => [start]
  | l :: rest => (start ++ l) :: rest.map indented

/-- The text of a key. -/
def keyText : Node → String
  | .scalar s => "".intercalate (scalarBlock s)
  | _ => "?"

mutual

/-- The lines of a tree. -/
def block : Node → List String
  | .scalar s => scalarBlock s
  | .list [] => ["[]"]
  | .list (n :: rest) => itemBlock (n :: rest)
  | .map [] => ["\x7b\x7d"]
  | .map (e :: rest) => entryBlock (e :: rest)

/-- The lines of the items of a list. -/
def itemBlock : List Node → List String
  | [] => []
  | n :: rest => hung "- " (block n) ++ itemBlock rest

/-- The lines of the entries of a map. A list is not set further to the right than its key. -/
def entryBlock : List (Node × Node) → List String
  | [] => []
  | (k, v) :: rest =>
    let key := keyText k ++ ":"
    let lines := block v
    (match v with
    | .list (_ :: _) => key :: lines
    | .map (_ :: _) => key :: lines.map indented
    | _ => hung (key ++ " ") lines) ++ entryBlock rest

end

/-- **Write a document**, each line with its end. -/
def write (n : Node) : String := String.join ((block n).map (· ++ "\n"))

end MailFetch.Yaml

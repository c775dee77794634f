import MailFetch.Data.Numeral
import MailFetch.Yaml.Place

/-! # Scalars in YAML

Scalars are written plainly or between quotes, and may go over several lines. A gap between two
parts of a scalar is kept as it is inside one line; over several lines it is folded: one line
break becomes a space, and of more than one the first is left out.

* `quoted` reads a scalar between quotes, of which the first has been read.
* `plain` reads a scalar without quotes. -/

namespace MailFetch.Yaml

/-- **White space inside a scalar**, last character first. -/
inductive Gap
  /-- Inside one line. -/
  | blanks (cs : List Char)
  /-- Over the end of a line, and more ends of lines after it. -/
  | lines (first : Char) (more : List Char)
  /-- Over the end of a line that does not count, and more ends of lines after it. -/
  | joined (more : List Char)
deriving DecidableEq, Inhabited

namespace Gap

/-- No white space. -/
def nothing : Gap := blanks []

/-- Whether the gap goes over the end of a line. -/
def isBroken : Gap → Bool
  | blanks _ => false
  | lines _ _ | joined _ => true

/-- The gap with one more space inside a line: at the start of a line they do not count. -/
def space (c : Char) : Gap → Gap
  | blanks cs => blanks (c :: cs)
  | g => g

/-- The gap with one more end of a line. -/
def newLine (c : Char) : Gap → Gap
  | blanks _ => lines c []
  | lines first more => lines first (c :: more)
  | joined more => joined (c :: more)

/-- What stands for the gap in the scalar, last character first. -/
def fold : Gap → List Char
  | blanks cs => cs
  | lines '\n' [] => [' ']
  | lines '\n' more => more
  | lines first more => more ++ [first]
  | joined more => more

end Gap

/-- What is read of a scalar, and the place behind it. -/
structure Reading where
  text : String
  mark : Mark
  rest : List Char
  /-- Whether that place is on a later line than the scalar's last character. -/
  onNewLine : Bool := false
deriving Inhabited

/-! ### Quoted scalars -/

/-- The character with a code of `n` hexadecimal digits, and how many characters the escape
sequence takes up. -/
def codePoint (n : Nat) (s : List Char) : Option (Char × Nat) :=
  if s.length < n then none
  else
    (Data.Numeral.digits 16 (s.take n)).bind fun code =>
      if h : code.isValidChar then some (Char.ofNatAux code h, n + 1) else none

/-- The character that an escape sequence stands for, and how many characters it takes up behind
the backslash. -/
def escape : List Char → Option (Char × Nat)
  | '0' :: _ => some ('\x00', 1)
  | 'a' :: _ => some ('\x07', 1)
  | 'b' :: _ => some ('\x08', 1)
  | 't' :: _ | '\t' :: _ => some ('\t', 1)
  | 'n' :: _ => some ('\n', 1)
  | 'v' :: _ => some ('\x0b', 1)
  | 'f' :: _ => some ('\x0c', 1)
  | 'r' :: _ => some ('\r', 1)
  | 'e' :: _ => some ('\x1b', 1)
  | ' ' :: _ => some (' ', 1)
  | '"' :: _ => some ('"', 1)
  | '/' :: _ => some ('/', 1)
  | '\\' :: _ => some ('\\', 1)
  | 'N' :: _ => some ('\u0085', 1)
  | '_' :: _ => some ('\u00a0', 1)
  | 'L' :: _ => some ('\u2028', 1)
  | 'P' :: _ => some ('\u2029', 1)
  | 'x' :: rest => codePoint 2 rest
  | 'u' :: rest => codePoint 4 rest
  | 'U' :: rest => codePoint 8 rest
  | _ => none

/-- The quote around a scalar. -/
def quoteOf (double : Bool) : Char := if double then '"' else '\''

/-- **Read a scalar between quotes**, with what has been read of it, last character first, and the
gap behind that. Between double quotes a backslash starts an escape sequence, between single ones a
quote is written twice. -/
def quoted (double : Bool) (m : Mark) (text : List Char) (gap : Gap) :
    List Char → Option Reading
  | [] => none
  | c :: rest =>
    if isDocumentMark m (c :: rest) then none
    else if isBreak c then quoted double m.down text (gap.newLine c) rest
    else if isBlank c then quoted double (m.forward 1) text (gap.space c) rest
    else
      let text := gap.fold ++ text
      if c = quoteOf double then
        if ¬ double ∧ rest.head? = some c then
          quoted double (m.forward 2) (c :: text) .nothing rest.tail
        else some ⟨String.ofList text.reverse, m.forward 1, rest, false⟩
      else if double ∧ c = '\\' then
        if rest.head?.any isBreak then
          quoted double (m.forward 1).down text (.joined []) rest.tail
        else
          match escape rest with
          | none => none
          | some (d, n) => quoted double (m.forward (n + 1)) (d :: text) .nothing (rest.drop n)
      else quoted double (m.forward 1) (c :: text) .nothing rest
termination_by s => s.length

/-! ### Plain scalars -/

/-- Whether a character is one of those that order flow collections. -/
def isFlowSign (c : Char) : Bool := c = ',' || c = '[' || c = ']' || c = '\x7b' || c = '\x7d'

/-- Whether a plain scalar ends before a character. -/
def endsPlain (flow : Bool) (c : Char) (rest : List Char) : Bool :=
  (c = ':' && endsWord rest) || (flow && isFlowSign c)

/-- Whether a colon stands where it would be neither text nor the end of a key. -/
def isStrayColon (flow : Bool) (c : Char) (rest : List Char) : Bool :=
  flow && c = ':' && rest.head?.any fun d => isFlowSign d || d = '?'

/-- **Read a plain scalar**, with what has been read of it, last character first, and the gap
behind that. After a gap it goes on only at column `indent` or beyond, unless in a flow
collection. -/
def plain (flow : Bool) (indent : Int) (m : Mark) (text : List Char) (gap : Gap) :
    List Char → Option Reading
  | [] => some ⟨String.ofList text.reverse, m, [], gap.isBroken⟩
  | c :: rest =>
    if isBreak c then plain flow indent m.down text (gap.newLine c) rest
    else if isBlank c then
      if c = '\t' ∧ gap.isBroken ∧ m.column < indent then none
      else plain flow indent (m.forward 1) text (gap.space c) rest
    else if (gap ≠ .nothing ∧ (c = '#' ∨ (¬ flow ∧ m.column < indent))) ∨
        isDocumentMark m (c :: rest) ∨ endsPlain flow c rest then
      some ⟨String.ofList text.reverse, m, c :: rest, gap.isBroken⟩
    else if isStrayColon flow c rest then none
    else plain flow indent (m.forward 1) (c :: (gap.fold ++ text)) .nothing rest

end MailFetch.Yaml

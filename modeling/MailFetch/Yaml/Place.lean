/-! # Places in a YAML text

The kinds of characters that matter to YAML, and the places where they stand. All ways to end a
line count as one, apart from the two separators that only some texts use.

* `unifyBreaks` writes every end of a line in the same way. -/

namespace MailFetch.Yaml

/-- Whether a character may stand in a YAML text. -/
def isAllowed (c : Char) : Bool :=
  c = '\t' || c = '\n' || c = '\r' || (' ' ≤ c && c ≤ '~') || c = '\u0085' ||
    ('\u00a0' ≤ c && c ≤ '\ufffd') || 0x10000 ≤ c.toNat

/-- The text with one way to end a line: a line feed in place of a carriage return, of both
together, and of a next-line character. -/
def unifyBreaks : List Char → List Char
  | [] => []
  | '\r' :: '\n' :: rest => '\n' :: unifyBreaks rest
  | c :: rest => (if c = '\r' ∨ c = '\u0085' then '\n' else c) :: unifyBreaks rest

/-- Whether a character ends a line. -/
def isBreak (c : Char) : Bool := c = '\n' || c = '\u2028' || c = '\u2029'

/-- Whether a character is a space inside a line. -/
def isBlank (c : Char) : Bool := c = ' ' || c = '\t'

/-- The mark that may stand in front of a line to tell how it is encoded. -/
def isOrderMark (c : Char) : Bool := c = '\ufeff'

/-- Whether a word cannot go on: a space comes, or the end of the line or the text. -/
def endsWord : List Char → Bool
  | [] => true
  | c :: _ => isBlank c || isBreak c

/-- **Where a character stands.** -/
structure Mark where
  /-- How many characters come before it. -/
  index : Nat := 0
  line : Nat := 0
  column : Nat := 0
deriving DecidableEq, Inhabited

namespace Mark

/-- The place some characters further on in the same line. -/
def forward (m : Mark) (n : Nat) : Mark := ⟨m.index + n, m.line, m.column + n⟩

/-- The start of the next line. -/
def down (m : Mark) : Mark := ⟨m.index + 1, m.line + 1, 0⟩

end Mark

/-- Whether the mark of a document's start or end stands here. -/
def isDocumentMark (m : Mark) (s : List Char) : Bool :=
  m.column = 0 && endsWord (s.drop 3) &&
    (s.take 3 = ['-', '-', '-'] || s.take 3 = ['.', '.', '.'])

end MailFetch.Yaml

import MailFetch.Yaml.Scalar

/-! # The tokens of a YAML text

A YAML text is a row of signs and scalars. The nesting that block collections show by their
columns is turned into tokens of its own, so that each collection has a start and an end; a key is
known as one only by the colon behind it, and its token is put in front of it then.

* `Token.ofText?` gives the tokens of a text, unless no YAML text has them. -/

namespace MailFetch.Yaml

/-- **A token.** -/
inductive Token
  | documentStart
  | documentEnd
  | blockList
  | blockMap
  | blockEnd
  | openList
  | closeList
  | openMap
  | closeMap
  /-- The dash before an item. -/
  | item
  | comma
  | key
  | value
  | quoted (text : String)
  | plain (text : String)
deriving DecidableEq, Inhabited

/-- A place where a key may start. -/
structure Candidate where
  /-- How many tokens come before it. -/
  number : Nat
  mark : Mark
  /-- Whether nothing but a key may stand there. -/
  required : Bool
deriving DecidableEq, Inhabited

/-- How many characters a key may have in front of its colon. -/
def maxKeyLength : Nat := 1024

/-- A text that has been read in part. -/
structure Lexer where
  rest : List Char
  mark : Mark := {}
  tokens : Array Token := #[]
  /-- The columns of the block collections around this place, innermost first. -/
  columns : List Nat := []
  /-- Where the key of the innermost collection may have started. -/
  key : Option Candidate := none
  /-- The same for the collections around it, one for each flow collection that is open. -/
  outer : List (Option Candidate) := []
  /-- Whether a key may start here. -/
  keyAllowed : Bool := true
deriving Inhabited

namespace Lexer

/-- Whether this place is in a flow collection. -/
def inFlow (s : Lexer) : Bool := !s.outer.isEmpty

/-- The column of the innermost block collection. -/
def indent (s : Lexer) : Int := s.columns.head?.elim (-1) Int.ofNat

/-- Add a token. -/
def push (s : Lexer) (t : Token) : Lexer := { s with tokens := s.tokens.push t }

/-- Go over characters of this line. -/
def forward (s : Lexer) (n : Nat) : Lexer :=
  { s with rest := s.rest.drop n, mark := s.mark.forward n }

/-- Go over spaces, comments and ends of lines. A tab counts as a space only where no key may
start. -/
def skipBlanks (flow allowed comment : Bool) (m : Mark) : List Char → Bool × Mark × List Char
  | [] => (allowed, m, [])
  | c :: rest =>
    if isBreak c then skipBlanks flow (allowed || !flow) false m.down rest
    else if comment || c = ' ' || (c = '\t' && (flow || !allowed)) ||
        (isOrderMark c && m.column = 0) then
      skipBlanks flow allowed comment (m.forward 1) rest
    else if c = '#' then skipBlanks flow allowed true (m.forward 1) rest
    else (allowed, m, c :: rest)

/-- The place of the next token. -/
def skip (s : Lexer) : Lexer :=
  let (allowed, mark, rest) := skipBlanks s.inFlow s.keyAllowed false s.mark s.rest
  { s with keyAllowed := allowed, mark := mark, rest := rest }

/-- Whether what started at a place can no longer be a key: keys are short and within one line. -/
def isPast (s : Lexer) (c : Candidate) : Bool :=
  c.mark.line < s.mark.line || c.mark.index + maxKeyLength < s.mark.index

/-- Give up the candidates that can no longer be keys; none of them must have been required. -/
def forgetPast (s : Lexer) : Option Lexer :=
  let lost := fun c => s.isPast c
  if (s.key :: s.outer).any fun c => c.any fun c => c.required && lost c then none
  else some { s with
    key := s.key.filter fun c => !lost c
    outer := s.outer.map fun c => c.filter fun c => !lost c }

/-- Give up the candidate for a key, if it is not required. -/
def dropKey (s : Lexer) : Option Lexer :=
  if s.key.any (·.required) then none else some { s with key := none }

/-- Note that a key may start here. -/
def saveKey (s : Lexer) : Option Lexer :=
  if s.keyAllowed then
    s.dropKey.map fun s => { s with
      key := some ⟨s.tokens.size, s.mark, !s.inFlow && s.indent = s.mark.column⟩ }
  else some s

/-- End the block collections that are further to the right than a column. -/
def endBlocks (s : Lexer) (column : Int) : Lexer :=
  if s.inFlow then s
  else
    let open? := fun (c : Nat) => decide (column < c)
    { s with
      columns := s.columns.dropWhile open?
      tokens := s.tokens ++ (s.columns.takeWhile open?).toArray.map fun _ => Token.blockEnd }

/-- Start a block collection at a column that is further to the right than all others, with its
token in front of the token of a number. -/
def startBlock (s : Lexer) (column number : Nat) (t : Token) : Lexer :=
  if !s.inFlow && s.indent < column then
    { s with columns := column :: s.columns, tokens := s.tokens.insertIdxIfInBounds number t }
  else s

/-- Start a block collection here. -/
def startBlockHere (s : Lexer) (t : Token) : Option Lexer :=
  if s.inFlow then some s
  else if s.keyAllowed then some (s.startBlock s.mark.column s.tokens.size t)
  else none

/-- Read the mark of a document's start or end. -/
def documentMark (s : Lexer) (t : Token) : Option Lexer :=
  (s.endBlocks (-1)).dropKey.map fun s => { s.push t with keyAllowed := false }.forward 3

/-- Open a flow collection. -/
def openFlow (s : Lexer) (t : Token) : Option Lexer :=
  s.saveKey.map fun s =>
    { s.push t with outer := s.key :: s.outer, key := none, keyAllowed := true }.forward 1

/-- Close a flow collection. -/
def closeFlow (s : Lexer) (t : Token) : Option Lexer :=
  s.dropKey.map fun s =>
    let s := { s.push t with key := s.outer.head?.join, outer := s.outer.tail, keyAllowed := false }
    s.forward 1

/-- Read a comma. -/
def comma (s : Lexer) : Option Lexer :=
  s.dropKey.map fun s => { s.push .comma with keyAllowed := true }.forward 1

/-- Read the dash before an item. -/
def item (s : Lexer) : Option Lexer :=
  ((s.startBlockHere .blockList).bind dropKey).map fun s =>
    { s.push .item with keyAllowed := true }.forward 1

/-- Read the question mark before a key. -/
def explicitKey (s : Lexer) : Option Lexer :=
  ((s.startBlockHere .blockMap).bind dropKey).map fun s =>
    { s.push .key with keyAllowed := !s.inFlow }.forward 1

/-- Read a colon: what stands in front of it was a key. -/
def value (s : Lexer) : Option Lexer :=
  match s.key with
  | some c =>
    let s := { s with tokens := s.tokens.insertIdxIfInBounds c.number .key }
    some ({ (s.startBlock c.mark.column c.number .blockMap).push .value with
      key := none, keyAllowed := false }.forward 1)
  | none =>
    (s.startBlockHere .blockMap).map fun s =>
      { s.push .value with keyAllowed := !s.inFlow }.forward 1

/-- Go on behind a scalar. -/
def after (s : Lexer) (r : Reading) (t : String → Token) : Lexer :=
  { s.push (t r.text) with mark := r.mark, rest := r.rest, keyAllowed := r.onNewLine }

/-- Whether no plain scalar starts with a character. -/
def isSign (c : Char) : Bool :=
  isBlank c || c ∈ ['-', '?', ':', ',', '[', ']', '\x7b', '\x7d', '#', '&', '*', '!', '|', '>',
    '\'', '"', '%', '@', '\x60']

/-- Whether a plain scalar starts here. -/
def startsPlain (s : Lexer) (c : Char) (rest : List Char) : Bool :=
  !isSign c || (c = '-' && !rest.head?.any isBlank) ||
    (!s.inFlow && (c = '?' || c = ':') && !endsWord rest)

/-- Read one token, which starts with the character `c`. -/
def readToken (s : Lexer) (c : Char) (rest : List Char) : Option Lexer :=
  if s.mark.column = 0 ∧ c = '%' then none
  else if isDocumentMark s.mark s.rest then
    s.documentMark (if c = '-' then .documentStart else .documentEnd)
  else if c = '[' then s.openFlow .openList
  else if c = '\x7b' then s.openFlow .openMap
  else if c = ']' then s.closeFlow .closeList
  else if c = '\x7d' then s.closeFlow .closeMap
  else if c = ',' then s.comma
  else if c = '-' ∧ endsWord rest then s.item
  else if c = '?' ∧ (s.inFlow ∨ endsWord rest) then s.explicitKey
  else if c = ':' ∧ (s.inFlow ∨ endsWord rest) then s.value
  else if c = '\'' ∨ c = '"' then
    s.saveKey.bind fun s =>
      (quoted (c = '"') (s.mark.forward 1) [] .nothing rest).map fun r => s.after r .quoted
  else if s.startsPlain c rest then
    s.saveKey.bind fun s =>
      (plain s.inFlow (s.indent + 1) s.mark [] .nothing s.rest).map fun r => s.after r .plain
  else none

/-- Read all tokens, at most `fuel` of them. -/
def readTokens : Nat → Lexer → Option (List Token)
  | 0, _ => none
  | fuel + 1, s =>
    s.skip.forgetPast.bind fun s =>
      let s := s.endBlocks s.mark.column
      match s.rest with
      | [] => (s.endBlocks (-1)).dropKey.map fun s => s.tokens.toList
      | c :: rest => (s.readToken c rest).bind (readTokens fuel)

end Lexer

/-- **The tokens of a text.** Each takes up one character of it or more. -/
def Token.ofText? (s : List Char) : Option (List Token) :=
  if s.all isAllowed then Lexer.readTokens (s.length + 1) { rest := unifyBreaks s } else none

end MailFetch.Yaml

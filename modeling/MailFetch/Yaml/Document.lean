import MailFetch.Data.Node
import MailFetch.Yaml.Token

/-! # YAML documents

A YAML text holds one document, which is a tree of data. A value that is left out is an empty
plain scalar; so is the document of an empty text.

* `Yaml.read` gives the document of a text. -/

namespace MailFetch.Yaml

open MailFetch.Data (Node)

/-- What a value stands for that is left out. -/
def absent : Node := .scalar (.plain "")

/-- Whether a block collection goes on without a value in this place. -/
def endsEntry : Token → Bool
  | .key | .value | .blockEnd => true
  | _ => false

/-- Whether a list in a block ends an item before this token. -/
def endsItem : Token → Bool
  | .item | .blockEnd => true
  | _ => false

/-- Whether a list that is not set further to the right ends an item before this token. -/
def endsInnerItem (t : Token) : Bool := endsItem t || endsEntry t

/-- Whether a flow list goes on without a value in this place. -/
def endsFlowItem : Token → Bool
  | .comma | .closeList => true
  | _ => false

/-- Whether a flow map goes on without a value in this place. -/
def endsFlowEntry : Token → Bool
  | .comma | .closeMap => true
  | _ => false

/-- The tokens behind the comma that every item but the first has in front of it. -/
def behindComma (first : Bool) (ts : List Token) : Option (List Token) :=
  if first then some ts
  else
    match ts with
    | .comma :: rest => some rest
    | _ => none

mutual

/-- A value. In a block it may be a block collection, and where `inner` is set also a list that is
not set further to the right than its key. -/
def node (fuel : Nat) (block inner : Bool) (ts : List Token) : Option (Node × List Token) :=
  match fuel with
  | 0 => none
  | fuel + 1 =>
    match ts with
    | .quoted s :: rest => some (.scalar (.text s), rest)
    | .plain s :: rest => some (.scalar (.plain s), rest)
    | .openList :: rest => (flowItems fuel true rest).map fun (l, rest) => (.list l, rest)
    | .openMap :: rest => (flowEntries fuel true rest).map fun (l, rest) => (.map l, rest)
    | .blockList :: rest =>
      if block then (items fuel rest).map fun (l, rest) => (.list l, rest) else none
    | .blockMap :: rest =>
      if block then (entries fuel rest).map fun (l, rest) => (.map l, rest) else none
    | .item :: _ =>
      if inner then (innerItems fuel ts).map fun (l, rest) => (.list l, rest) else none
    | _ => none
termination_by fuel

/-- A value that may be left out before some tokens. -/
def optionalNode (fuel : Nat) (block inner : Bool) (ends : Token → Bool) (ts : List Token) :
    Option (Node × List Token) :=
  match fuel with
  | 0 => none
  | fuel + 1 => if ts.head?.any ends then some (absent, ts) else node fuel block inner ts
termination_by fuel

/-- The value behind a key, if there is one. -/
def valueOf (fuel : Nat) (block : Bool) (ends : Token → Bool) (ts : List Token) :
    Option (Node × List Token) :=
  match fuel with
  | 0 => none
  | fuel + 1 =>
    match ts with
    | .value :: rest => optionalNode fuel block block ends rest
    | _ => some (absent, ts)
termination_by fuel

/-- The items of a block list, up to its end. -/
def items (fuel : Nat) (ts : List Token) : Option (List Node × List Token) :=
  match fuel with
  | 0 => none
  | fuel + 1 =>
    match ts with
    | .item :: rest => do
      let (n, rest) ← optionalNode fuel true false endsItem rest
      let (more, rest) ← items fuel rest
      return (n :: more, rest)
    | .blockEnd :: rest => some ([], rest)
    | _ => none
termination_by fuel

/-- The items of a block list that is not set further to the right than its key. -/
def innerItems (fuel : Nat) (ts : List Token) : Option (List Node × List Token) :=
  match fuel with
  | 0 => none
  | fuel + 1 =>
    match ts with
    | .item :: rest => do
      let (n, rest) ← optionalNode fuel true false endsInnerItem rest
      let (more, rest) ← innerItems fuel rest
      return (n :: more, rest)
    | _ => some ([], ts)
termination_by fuel

/-- The entries of a block map, up to its end. -/
def entries (fuel : Nat) (ts : List Token) : Option (List (Node × Node) × List Token) :=
  match fuel with
  | 0 => none
  | fuel + 1 =>
    match ts with
    | .key :: rest => do
      let (k, rest) ← optionalNode fuel true true endsEntry rest
      let (v, rest) ← valueOf fuel true endsEntry rest
      let (more, rest) ← entries fuel rest
      return ((k, v) :: more, rest)
    | .blockEnd :: rest => some ([], rest)
    | _ => none
termination_by fuel

/-- The items of a flow list, up to its end. An item with a colon is a map of one entry. -/
def flowItems (fuel : Nat) (first : Bool) (ts : List Token) : Option (List Node × List Token) :=
  match fuel with
  | 0 => none
  | fuel + 1 =>
    match ts with
    | .closeList :: rest => some ([], rest)
    | ts => do
      let ts ← behindComma first ts
      match ts with
      | .closeList :: rest => return ([], rest)
      | .key :: rest =>
        let (k, rest) ← singleKey fuel rest
        let (v, rest) ← valueOf fuel false endsFlowItem rest
        let (more, rest) ← flowItems fuel false rest
        return (.map [(k, v)] :: more, rest)
      | ts =>
        let (n, rest) ← node fuel false false ts
        let (more, rest) ← flowItems fuel false rest
        return (n :: more, rest)
termination_by fuel

/-- The key of an entry in a flow list; one that is left out takes the next sign with it. -/
def singleKey (fuel : Nat) (ts : List Token) : Option (Node × List Token) :=
  match fuel with
  | 0 => none
  | fuel + 1 =>
    if ts.head?.any fun t => endsFlowItem t || t == .value then some (absent, ts.tail)
    else node fuel false false ts
termination_by fuel

/-- The entries of a flow map, up to its end. A key without a colon has no value. -/
def flowEntries (fuel : Nat) (first : Bool) (ts : List Token) :
    Option (List (Node × Node) × List Token) :=
  match fuel with
  | 0 => none
  | fuel + 1 =>
    match ts with
    | .closeMap :: rest => some ([], rest)
    | ts => do
      let ts ← behindComma first ts
      match ts with
      | .closeMap :: rest => return ([], rest)
      | .key :: rest =>
        let (k, rest) ← optionalNode fuel false false (fun t => endsFlowEntry t || t == .value) rest
        let (v, rest) ← valueOf fuel false endsFlowEntry rest
        let (more, rest) ← flowEntries fuel false rest
        return ((k, v) :: more, rest)
      | ts =>
        let (k, rest) ← node fuel false false ts
        let (more, rest) ← flowEntries fuel false rest
        return ((k, absent) :: more, rest)
termination_by fuel

end

/-- The document that tokens make up; behind it nothing but marks of its end may follow. -/
def ofTokens? (ts : List Token) : Option Node :=
  let fuel := 3 * ts.length + 3
  let start :=
    match ts with
    | [] => some (absent, [])
    | .documentStart :: rest =>
      match rest with
      | [] | .documentStart :: _ | .documentEnd :: _ => some (absent, rest)
      | rest => node fuel true false rest
    | ts => node fuel true false ts
  start.bind fun (n, rest) => if rest.all (· == .documentEnd) then some n else none

/-- **Read the one document of a YAML text.** -/
def read (s : String) : Option Node := (Token.ofText? s.toList).bind ofTokens?

end MailFetch.Yaml

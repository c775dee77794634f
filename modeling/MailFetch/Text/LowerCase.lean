import MailFetch.Text.CaseTable

/-! # Lower case

The lower-case form of a text over all of Unicode. Each letter goes to its own lower-case form,
with two exceptions: the capital dotted `I` becomes an `i` and a combining dot, and a capital sigma
becomes the final sigma `ς` where it ends a word, that is, where a letter stands before it and none
after it. In the search for these neighbours the case-ignorable code points are skipped. -/

namespace MailFetch.Text

/-- Whether a code point lies in one of the runs. -/
def inRuns (runs : Array (Nat × Nat)) (c : Nat) : Bool :=
  runs.any fun r => r.1 ≤ c && c ≤ r.2

/-- The lower-case form of a letter, its own value where it has none of one letter. -/
def lowerChar (c : Char) : Char :=
  let n := c.toNat
  if n < 128 then c.toLower
  else
    match lowerRuns.find? fun r => r.1 ≤ n && n ≤ r.2.1 && (n - r.1) % r.2.2.1 = 0 with
    | some r => Char.ofNat (n + r.2.2.2).toNat
    | none => c

/-- Whether the first code point that is not skipped has letter case. -/
def nextIsCased : List Char → Bool
  | [] => false
  | c :: rest =>
    if inRuns ignorableRuns c.toNat then nextIsCased rest else inRuns casedRuns c.toNat

/-- The lower-case form of a text whose first argument has, nearest first, what stands before. -/
def lowerAfter (before : List Char) : List Char → List Char
  | [] => []
  | c :: rest =>
    let form :=
      if c = 'Σ' then
        if nextIsCased before && !nextIsCased rest then ['ς'] else ['σ']
      else if c = 'İ' then ['i', '\u0307']
      else [lowerChar c]
    form ++ lowerAfter (c :: before) rest

/-- **The lower-case form of a text.** -/
def lower (s : String) : String := String.ofList (lowerAfter [] s.toList)

end MailFetch.Text

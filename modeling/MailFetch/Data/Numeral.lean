import MailFetch.Text.Decimal

/-! # Numerals in plain text

The forms that an unquoted scalar may have to be read as a number or a truth value. Whole numbers
may be written in base ten, or after `0x`, `0o` or `0b` in base sixteen, eight or two; a plus sign
may stand in front. A base-ten numeral with a leading zero is no number.

* `natural` reads a number that cannot be negative, `integer` one that can.
* `real` reads a number with a point or an exponent, rounded to the nearest one that can be held;
  what is too large for that is refused. -/

namespace MailFetch.Data.Numeral

open MailFetch.Text

/-- The value of a digit in bases up to sixteen. -/
def digit? (base : Nat) (c : Char) : Option Nat :=
  let n :=
    if isDigit c then some (digitValue c)
    else if 'a' ≤ c ∧ c ≤ 'f' then some (c.toNat - 87)
    else if 'A' ≤ c ∧ c ≤ 'F' then some (c.toNat - 55)
    else none
  n.filter (· < base)

/-- Read one digit or more. -/
def digits (base : Nat) (s : List Char) : Option Nat :=
  if s = [] then none
  else s.foldlM (fun n c => (digit? base c).map fun d => base * n + d) 0

/-- A numeral without a sign, in base ten or with a sign of its base in front. -/
def unsigned : List Char → Option Nat
  | '0' :: 'x' :: rest => digits 16 rest
  | '0' :: 'o' :: rest => digits 8 rest
  | '0' :: 'b' :: rest => digits 2 rest
  | '0' :: d :: rest => if (d :: rest).all isDigit then none else digits 10 ('0' :: d :: rest)
  | s => digits 10 s

/-- **A number that cannot be negative.** -/
def natural (s : List Char) : Option Nat :=
  match s with
  | '+' :: rest => unsigned rest
  | s => unsigned s

/-- **A number that can be negative.** -/
def integer (s : List Char) : Option Int :=
  match s with
  | '-' :: rest => (unsigned rest).map fun n => -Int.ofNat n
  | s => (natural s).map Int.ofNat

/-- The number `m * 10 ^ e`, with a bound on the exponent beyond which it is zero or too large. -/
def scaled (m : Nat) (e : Int) : Option Float :=
  let magnitude := (writeNat m).length + e
  if m = 0 ∨ magnitude < -400 then some 0
  else if 400 < magnitude then none
  else
    let x := if 0 ≤ e then Float.ofScientific m false e.toNat
      else Float.ofScientific m true (-e).toNat
    if x.isFinite then some x else none

/-- An exponent: nothing, or a letter, perhaps a sign, and one digit or more. -/
def exponent : List Char → Option Int
  | [] => some 0
  | c :: rest =>
    if c = 'e' ∨ c = 'E' then
      match rest with
      | '-' :: ds => (readNat ds).map fun n => -Int.ofNat n
      | '+' :: ds => (readNat ds).map Int.ofNat
      | ds => (readNat ds).map Int.ofNat
    else none

/-- A decimal without a sign: digits, perhaps with a point among them, and an exponent. -/
def decimal (s : List Char) : Option Float :=
  let whole := s.takeWhile isDigit
  let rest := s.dropWhile isDigit
  let (part, tail) :=
    match rest with
    | '.' :: more => (more.takeWhile isDigit, more.dropWhile isDigit)
    | _ => ([], rest)
  if whole = [] ∧ part = [] then none
  else (exponent tail).bind fun e => scaled (digitsValue 0 (whole ++ part)) (e - part.length)

/-- A decimal with a sign in front, or without one. -/
def signed : List Char → Option Float
  | '-' :: rest => (decimal rest).map fun x => -x
  | '+' :: rest => decimal rest
  | s => decimal s

/-- **A number that need not be whole**, or one of the words for what is not finite. -/
def real (s : List Char) : Option Float :=
  let word := String.ofList s
  if word ∈ [".inf", ".Inf", ".INF", "+.inf", "+.Inf", "+.INF"] then some (1 / 0)
  else if word ∈ ["-.inf", "-.Inf", "-.INF"] then some (-1 / 0)
  else if word ∈ [".nan", ".NaN", ".NAN"] then some (0 / 0)
  else signed s

/-- A truth value. -/
def truth (s : String) : Option Bool :=
  if s ∈ ["true", "True", "TRUE"] then some true
  else if s ∈ ["false", "False", "FALSE"] then some false
  else none

/-- Whether a scalar stands for nothing. -/
def isNull (s : String) : Bool := s ∈ ["", "~", "null", "Null", "NULL"]

end MailFetch.Data.Numeral

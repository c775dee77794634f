/-! # The shortest decimal of a number

A number of eight bytes stands for all reals that are rounded to it: those from half-way to its
neighbour below to half-way to its neighbour above. Of the decimals among them the shortest is
chosen, and of several the one that is nearest to the number.

`Binary.shortest` gives its digits and the power of ten of the last one. -/

namespace MailFetch.Decimal

/-- A number `m * 2 ^ q` that is not negative. -/
structure Binary where
  m : Nat
  q : Int
  /-- Whether the neighbour below is only half as far away as the one above. -/
  narrowBelow : Bool
deriving DecidableEq, Inhabited

namespace Binary

/-- The absolute value of a finite number, from its bits. -/
def ofBits (bits : Nat) : Binary :=
  let fraction : Nat := bits % (1 <<< 52)
  let exponent : Nat := (bits >>> 52) % 2048
  if exponent = 0 then ⟨fraction, -1074, false⟩
  else ⟨fraction + (1 <<< 52), (exponent : Int) - 1075, fraction = 0 ∧ 1 < exponent⟩

/-- The unit `2 ^ (q - 2)` as a fraction of the grid of the multiples of `10 ^ e`: a quotient of
two whole numbers. A quarter of the last binary place, it makes the ends of the interval whole. -/
def unit (b : Binary) (e : Int) : Nat × Nat :=
  (Nat.pow 2 (b.q - 2).toNat * Nat.pow 10 (-e).toNat,
    Nat.pow 2 (2 - b.q).toNat * Nat.pow 10 e.toNat)

/-- The lower end of the interval, in units. -/
def low (b : Binary) : Nat := 4 * b.m - if b.narrowBelow then 1 else 2

/-- The upper end of the interval, in units. -/
def high (b : Binary) : Nat := 4 * b.m + 2

/-- Whether `c * 10 ^ e` is rounded to the number; the ends of the interval are, if `m` is
even. -/
def isNear (b : Binary) (e : Int) (c : Nat) : Bool :=
  let (u, d) := b.unit e
  if b.m % 2 = 0 then b.low * u ≤ c * d && c * d ≤ b.high * u
  else b.low * u < c * d && c * d < b.high * u

/-- The first of two multiples of `10 ^ e` that is rounded to the number. -/
def nearOf (b : Binary) (e : Int) (c c' : Nat) : Option Nat :=
  if b.isNear e c then some c else if b.isNear e c' then some c' else none

/-- The nearest multiple of `10 ^ e` that is rounded to the number. Of two that are equally far
away it is the even one. -/
def onGrid (b : Binary) (e : Int) : Option Nat :=
  let (u, d) := b.unit e
  let c := 4 * b.m * u / d
  let rest := 2 * (4 * b.m * u % d)
  if rest < d ∨ (rest = d ∧ c % 2 = 0) then b.nearOf e c (c + 1) else b.nearOf e (c + 1) c

/-- How many steps to the right the point has to go in a number below one, until a digit other than
zero stands in front of it. -/
def zeros : Nat → Nat → Nat → Nat
  | 0, _, _ => 0
  | fuel + 1, n, d => if d ≤ 10 * n then 0 else zeros fuel (10 * n) d + 1

/-- The power of ten that is just above the number. -/
def magnitude (b : Binary) : Int :=
  let (u, d) := b.unit 0
  let n := 4 * b.m * u
  if d ≤ n then (Nat.toDigits 10 (n / d)).length else -(zeros 400 n d : Int)

/-- The shortest decimal of `n` digits or more, where `k` is the power of ten just above the
number: its digits, and the power of ten of the last one. Of no digits is that power of ten itself,
to which a number just below it may be near. Seventeen digits are always enough. -/
def search (b : Binary) (k : Int) : Nat → Nat → Option (Nat × Int)
  | 0, _ => none
  | fuel + 1, n =>
    match b.onGrid (k - n) with
    | some c => some (c, k - n)
    | none => search b k fuel (n + 1)

/-- **The digits of the shortest decimal**, and the power of ten of the last one. -/
def shortest (b : Binary) : Nat × Int :=
  if b.m = 0 then (0, 0) else (b.search b.magnitude 18 0).getD (0, 0)

end Binary

end MailFetch.Decimal

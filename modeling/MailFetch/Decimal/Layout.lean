import MailFetch.Decimal.Shortest
import MailFetch.Text.Decimal

/-! # Numbers with a point

How the digits of a number are laid out: with a point among them where it falls near, and with an
exponent where not. A whole number keeps a zero behind its point. -/

namespace MailFetch.Decimal

/-- **Where a number is written with a point**, by the power of ten just above it. -/
structure Layout where
  /-- From this power on. -/
  least : Int
  /-- Up to this power. -/
  most : Int
deriving DecidableEq, Inhabited

namespace Layout

/-- The digits of a number, of which the last one stands for `10 ^ e`. -/
def positive (l : Layout) (digits : List Char) (e : Int) : List Char :=
  let k := e + digits.length
  if 0 ≤ e ∧ k ≤ l.most then digits ++ List.replicate e.toNat '0' ++ ['.', '0']
  else if 0 < k ∧ k ≤ l.most then digits.take k.toNat ++ '.' :: digits.drop k.toNat
  else if l.least ≤ k ∧ k ≤ 0 then ['0', '.'] ++ List.replicate (-k).toNat '0' ++ digits
  else
    let part := if digits.length = 1 then [] else '.' :: digits.drop 1
    digits.take 1 ++ part ++ 'e' :: Text.writeInt (k - 1)

/-- **The text of a finite number.** -/
def finite (l : Layout) (x : Float) : String :=
  let bits := x.toBits.toNat
  let (digits, e) := (Binary.ofBits bits).shortest
  let text := if digits = 0 then ['0', '.', '0'] else l.positive (Text.writeNat digits) e
  String.ofList (if 1 <<< 63 ≤ bits then '-' :: text else text)

end Layout

end MailFetch.Decimal

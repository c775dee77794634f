/-! # Decimal numerals

Whole numbers written in base ten: the fewest digits, and a minus sign before a negative number.

* `readNat_writeNat`, `readInt_writeInt`: a written number reads back.
* `writeInt_injective`: different numbers are written differently. -/

namespace MailFetch.Text

/-- The digit for a number below ten. -/
def digitChar (n : Nat) : Char := Char.ofNat (48 + n)

/-- The value of a digit. -/
def digitValue (c : Char) : Nat := c.toNat - 48

/-- Whether a character is one of the ten digits. -/
def isDigit (c : Char) : Bool := 48 ≤ c.toNat && c.toNat ≤ 57

/-- The digits of a number, most significant first. -/
def writeNat (n : Nat) : List Char :=
  if n < 10 then [digitChar n] else writeNat (n / 10) ++ [digitChar (n % 10)]
termination_by n

/-- **A whole number in base ten.** -/
def writeInt : Int → List Char
  | .ofNat n => writeNat n
  | .negSucc n => '-' :: writeNat (n + 1)

/-- The text of a whole number. -/
def intText (i : Int) : String := String.ofList (writeInt i)

/-- The text of a number. -/
def natText (n : Nat) : String := String.ofList (writeNat n)

/-- The value of a string of digits, with a value for what stands before it. -/
def digitsValue (start : Nat) (s : List Char) : Nat :=
  s.foldl (fun n c => 10 * n + digitValue c) start

/-- Read a string of one digit or more. -/
def readNat (s : List Char) : Option Nat :=
  if s ≠ [] ∧ s.all isDigit then some (digitsValue 0 s) else none

/-- Read a number with or without a minus sign. -/
def readInt : List Char → Option Int
  | '-' :: rest => (readNat rest).map fun n => -Int.ofNat n
  | s => (readNat s).map Int.ofNat

theorem isDigit_digitChar {n : Nat} (h : n < 10) : isDigit (digitChar n) = true := by
  have : n = 0 ∨ n = 1 ∨ n = 2 ∨ n = 3 ∨ n = 4 ∨ n = 5 ∨ n = 6 ∨ n = 7 ∨ n = 8 ∨ n = 9 := by omega
  rcases this with h | h | h | h | h | h | h | h | h | h <;> subst h <;> rfl

theorem digitValue_digitChar {n : Nat} (h : n < 10) : digitValue (digitChar n) = n := by
  have : n = 0 ∨ n = 1 ∨ n = 2 ∨ n = 3 ∨ n = 4 ∨ n = 5 ∨ n = 6 ∨ n = 7 ∨ n = 8 ∨ n = 9 := by omega
  rcases this with h | h | h | h | h | h | h | h | h | h <;> subst h <;> rfl

theorem all_isDigit_writeNat (n : Nat) : (writeNat n).all isDigit = true := by
  fun_induction writeNat n with
  | case1 n h => simp [isDigit_digitChar h]
  | case2 n h ih => simp [ih, isDigit_digitChar (Nat.mod_lt n (by omega : 10 > 0))]

theorem digitsValue_append (start : Nat) (s t : List Char) :
    digitsValue start (s ++ t) = digitsValue (digitsValue start s) t := by
  simp [digitsValue]

theorem digitsValue_writeNat (n : Nat) : digitsValue 0 (writeNat n) = n := by
  fun_induction writeNat n with
  | case1 n h => simp [digitsValue, digitValue_digitChar h]
  | case2 n h ih =>
    rw [digitsValue_append, ih]
    simp only [digitsValue, List.foldl_cons, List.foldl_nil,
      digitValue_digitChar (Nat.mod_lt n (by omega : 10 > 0))]
    omega

theorem writeNat_ne_nil (n : Nat) : writeNat n ≠ [] := by
  unfold writeNat
  split <;> simp

theorem readNat_writeNat (n : Nat) : readNat (writeNat n) = some n := by
  rw [readNat, if_pos ⟨writeNat_ne_nil n, all_isDigit_writeNat n⟩, digitsValue_writeNat]

theorem head_writeNat_ne_minus (n : Nat) (rest : List Char) : writeNat n ≠ '-' :: rest := by
  intro h
  have := all_isDigit_writeNat n
  rw [h] at this
  simp [isDigit] at this

theorem readInt_writeInt (i : Int) : readInt (writeInt i) = some i := by
  cases i with
  | ofNat n =>
    simp only [writeInt]
    unfold readInt
    split
    · rename_i rest h
      exact absurd h (head_writeNat_ne_minus n rest)
    · simp [readNat_writeNat]
  | negSucc n =>
    simp only [writeInt, readInt, readNat_writeNat, Option.map_some, Option.some.injEq]
    rfl

theorem writeInt_injective {i j : Int} (h : writeInt i = writeInt j) : i = j := by
  have := congrArg readInt h
  simpa [readInt_writeInt] using this

end MailFetch.Text

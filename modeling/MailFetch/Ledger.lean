import MailFetch.Table

/-! # Ledgers

Two running accounts that outlive single requests: the bytes believed to be stored for each
account, and the failures in a row of each attachment. -/

namespace MailFetch

/-- The largest number of bytes that the ledger can hold. -/
def maxBytes : Nat := 0xFFFFFFFFFFFFFFFF

/-- **The bytes believed to be stored for each account.** Downloads add to an entry, deletions are
not seen, so between exact counts it is an upper bound. -/
structure UsageLedger where
  table : Table Nat := .empty
deriving DecidableEq, Inhabited

namespace UsageLedger

/-- The entry of an account. -/
def get? (l : UsageLedger) (account : Int) : Option Nat := l.table.get? account

/-- The total after some bytes more, which stops at the largest number. -/
def totalWith (l : UsageLedger) (account : Int) (bytes : Nat) : Nat :=
  min ((l.get? account).getD 0 + bytes) maxBytes

/-- Add bytes to the entry of an account. -/
def add (l : UsageLedger) (account : Int) (bytes : Nat) : UsageLedger :=
  ⟨l.table.insert account (l.totalWith account bytes)⟩

/-- Replace the entry of an account by an exact count. -/
def set (l : UsageLedger) (account : Int) (bytes : Nat) : UsageLedger :=
  ⟨l.table.insert account bytes⟩

end UsageLedger

/-- **The failures in a row of each attachment.** -/
structure FailureLedger where
  table : Table UInt32 := .empty
deriving DecidableEq, Inhabited

namespace FailureLedger

/-- The failures in a row of an attachment, if it has an entry. -/
def get? (l : FailureLedger) (id : Int) : Option UInt32 := l.table.get? id

/-- The count after one more end of a transfer. -/
def countAfter (l : FailureLedger) (id : Int) (success : Bool) : UInt32 :=
  if success then 0 else (l.get? id).getD 0 + 1

/-- Enter the end of a transfer: a success clears the entry, anything else adds one to it. -/
def settle (l : FailureLedger) (id : Int) (success : Bool) : FailureLedger :=
  if success then ⟨l.table.erase id⟩ else ⟨l.table.insert id (l.countAfter id success)⟩

end FailureLedger

end MailFetch

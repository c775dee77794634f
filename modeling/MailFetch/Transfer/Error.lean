import MailFetch.Status
import MailFetch.Text.Decimal

/-! # Transfer errors

Why a transfer is not begun or does not succeed, and the status that is reported for each
reason. -/

namespace MailFetch

/-- **Why a transfer fails.** -/
inductive TransferError
  /-- The other side could not be asked at all. -/
  | unreachable (reason : String)
  /-- The connection was not made or broke off. -/
  | network
  /-- The answer had an unsuccessful status code. -/
  | http (code : Nat)
  | noLocation (id : Int)
  | attachmentNotFound (id : Int)
  | io (reason : String)
deriving DecidableEq, Inhabited

namespace TransferError

/-- The status reported for a failure. -/
def status : TransferError → Status
  | unreachable _ | network => .connectionError
  | http code =>
    if code = 404 ∨ code = 410 then .attachmentNotFound
    else if 500 ≤ code then .connectionError
    else .failed
  | noLocation _ => .unsupported
  | attachmentNotFound _ => .attachmentNotFound
  | io _ => .failed

/-- The text of a failure. What broke a connection is told by whoever kept it. -/
def message : TransferError → String
  | unreachable reason => "Backend unreachable: " ++ reason
  | network => "Network error"
  | http code => "HTTP " ++ Text.natText code
  | noLocation id => "Attachment " ++ Text.intText id ++ " has no location"
  | attachmentNotFound id => "Attachment " ++ Text.intText id ++ " not found"
  | io reason => "IO error: " ++ reason

/-- Every failure is reported by a status that ends the transfer, and never as a success. -/
theorem status_isTerminal (e : TransferError) :
    e.status.isTerminal = true ∧ e.status ≠ .success := by
  cases e with
  | http code => by_cases h : code = 404 ∨ code = 410 <;> by_cases k : 500 ≤ code <;>
      simp [status, h, k, Status.isTerminal]
  | _ => simp [status, Status.isTerminal]

end TransferError

end MailFetch

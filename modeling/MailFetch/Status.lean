/-! # Transfer status

What a transfer reports about itself. All reports but one end the transfer. -/

namespace MailFetch

/-- **The status carried by a transfer's report.** -/
inductive Status
  | inProgress
  | success
  | connectionError
  | attachmentNotFound
  | messageNotFound
  | policyViolation
  | unsupported
  | failed
deriving DecidableEq, Inhabited

namespace Status

/-- Whether the report ends its transfer. -/
def isTerminal : Status → Bool
  | inProgress => false
  | _ => true

/-- The written form of a status. -/
def name : Status → String
  | inProgress => "in-progress"
  | success => "success"
  | connectionError => "connection-error"
  | attachmentNotFound => "attachment-not-found"
  | messageNotFound => "message-not-found"
  | policyViolation => "policy-violation"
  | unsupported => "unsupported"
  | failed => "failed"

/-- All statuses. -/
def all : List Status :=
  [inProgress, success, connectionError, attachmentNotFound, messageNotFound, policyViolation,
    unsupported, failed]

/-- The status with a written form. -/
def ofName? (s : String) : Option Status := all.find? fun p => p.name == s

end Status

end MailFetch

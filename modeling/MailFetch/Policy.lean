import MailFetch.Attachment.Basic

/-! # Download policy

Which attachments may be downloaded at all: not those barred by their flags, none above the size
limit, and none of a blocked type. -/

namespace MailFetch

/-- **A download policy**: a size limit, if any, and the beginnings of blocked types. -/
structure Policy where
  maxBytes : Option Nat := none
  blockedTypes : List String := []
deriving DecidableEq, Inhabited

/-- Whether the first text begins with the second. -/
def beginsWith (s start : String) : Bool := start.toList.isPrefixOf s.toList

/-- Whether the policy lets an attachment be downloaded. Types are compared in lower case. -/
def Policy.allows (p : Policy) (a : Attachment) : Bool :=
  !a.flags.contains .barred &&
    (match p.maxBytes with
    | some limit => a.size ≤ limit
    | none => true) &&
    !p.blockedTypes.any fun start => beginsWith (Text.lower a.effectiveType) (Text.lower start)

/-- No policy lets a barred attachment be downloaded. -/
theorem Policy.allows_eq_false_of_barred (p : Policy) {a : Attachment}
    (h : a.flags.contains .barred = true) : p.allows a = false := by
  simp [allows, h]

end MailFetch

import MailFetch.Attachment.Flags
import MailFetch.Text.LowerCase

/-! # Priority classes

A download is urgent because a user asked for it, because outgoing mail waits for it, or not at
all. The classes are ordered by rank, the most urgent first. -/

namespace MailFetch

/-- **The urgency of a download**, most urgent first. -/
inductive Priority
  | foreground
  | sendMail
  | background
deriving DecidableEq, Inhabited

namespace Priority

/-- The place of a class in the order, `0` being the most urgent. -/
def rank : Priority → Nat
  | foreground => 0
  | sendMail => 1
  | background => 2

/-- The most urgent class. -/
def highest : Priority := foreground

/-- The least urgent class. -/
def lowest : Priority := background

/-- The written form of a class. -/
def name : Priority → String
  | foreground => "foreground"
  | sendMail => "send-mail"
  | background => "background"

/-- All classes. -/
def all : List Priority := [foreground, sendMail, background]

/-- The class with a written form. -/
def ofName? (s : String) : Option Priority := all.find? fun p => p.name == s

/-- The class that a record's flags ask for: mail that waits comes before a user's request. -/
def ofFlags (f : Flags) : Option Priority :=
  if f.contains .forward then some sendMail
  else if f.contains .requested then some foreground
  else none

/-- Read a class by name or rank, in any letter case. -/
def parse (s : String) : Except String Priority :=
  match Text.lower s with
  | "foreground" | "0" => .ok foreground
  | "send-mail" | "sendmail" | "1" => .ok sendMail
  | "background" | "2" => .ok background
  | _ => .error ("Unknown priority class: " ++ s)

/-- Ranks tell classes apart. -/
theorem rank_injective {p q : Priority} (h : p.rank = q.rank) : p = q := by
  cases p <;> cases q <;> simp_all [rank]

end Priority

end MailFetch

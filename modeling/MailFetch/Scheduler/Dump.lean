import MailFetch.Scheduler.Event

/-! # The listing of requests

A text that shows the waiting requests in the order in which they leave the queue, and the requests
in flight in the order of their starts, one to a line. -/

namespace MailFetch

/-- A length of time: whole seconds, or milliseconds below one second. -/
def ageText (nanos : Nat) : String :=
  if 0 < nanos / seconds 1 then Text.natText (nanos / seconds 1) ++ "s"
  else Text.natText (nanos / millis 1) ++ "ms"

/-- How long ago something was, or a dash where it never was. -/
def agoText (now : Nat) : Option Nat → String
  | some t => ageText (now - t)
  | none => "-"

/-- What the listing says of a record. -/
def recordText : Except StoreError (Option Attachment) → String
  | .ok (some a) =>
    ", Suffix: " ++ a.suffix.getD "-" ++ ", Mime: " ++ a.effectiveType ++
      (if a.infersType then " [inferred]" else "") ++ ", Size: " ++ Text.natText a.size
  | .ok none => ", Record: missing"
  | .error e => ", Record: " ++ e.message

/-- The line of a request, with what its record is found to be. -/
def requestLine (w : World) (r : Request) : String :=
  "Account: " ++ Text.intText r.account ++ ", Attachment: " ++ Text.intText r.id ++
    ", Priority: " ++ r.priority.name ++ " (" ++ Text.natText r.priority.rank ++ ")" ++
    ", Age: " ++ ageText (w.now - r.enqueuedAt) ++
    ", Retries: " ++ Text.natText r.retries.toNat ++ recordText (w.attachment r.id)

/-- What is added to the line of a request in flight. -/
def flightText (now : Nat) (r : Request) : String :=
  ", Status: " ++ (r.status.map (·.name)).getD "none" ++
    ", Progress: " ++ Text.natText r.progress ++ "%" ++
    ", Elapsed: " ++ agoText now r.startedAt ++
    ", Last callback: " ++ agoText now r.heardAt ++ " ago"

/-- A heading with the number of lines below it, and these lines. -/
def listed (title : String) (lines : List String) : String :=
  title ++ ", " ++ Text.natText lines.length ++ " entries\n" ++
    String.join (lines.map fun l => "  " ++ l ++ "\n")

/-- **The listing of all requests.** -/
def State.dump (s : State) : String :=
  listed "Queue" (s.scheduler.queue.toList.map (requestLine s.world)) ++
    listed "In progress" (s.scheduler.flights.byStart.map fun r =>
      requestLine s.world r ++ flightText s.world.now r)

end MailFetch

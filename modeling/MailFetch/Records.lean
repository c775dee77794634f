import MailFetch.Attachment.Update
import MailFetch.Table
import MailFetch.Text.Decimal

/-! # The record store

The records of attachments, messages and accounts, each by its own number. -/

namespace MailFetch

/-- Why the store does not answer. -/
inductive StoreError
  | notFound (id : Int)
  | unavailable (reason : String)
  | invalidSeed
deriving DecidableEq, Inhabited

/-- The text of a store error; what makes a seed invalid is told by its reader. -/
def StoreError.message : StoreError → String
  | notFound id => "Record not found: Attachment " ++ Text.intText id
  | unavailable reason => "Store unavailable: " ++ reason
  | invalidSeed => "Invalid seed"

/-- What a store starts with. -/
structure Seed where
  accounts : List Account := []
  messages : List Message := []
  attachments : List Attachment := []
deriving DecidableEq, Inhabited

/-- **The record store.** -/
structure Records where
  attachments : Table Attachment := .empty
  messages : Table Message := .empty
  accounts : Table Account := .empty
deriving DecidableEq, Inhabited

namespace Records

/-- The store that a seed describes; of several records with one number the last one counts. -/
def ofSeed (s : Seed) : Records where
  attachments := .ofList (s.attachments.map fun a => (a.id, a))
  messages := .ofList (s.messages.map fun m => (m.id, m))
  accounts := .ofList (s.accounts.map fun a => (a.id, a))

/-- Enter an attachment record. -/
def putAttachment (s : Records) (a : Attachment) : Records :=
  { s with attachments := s.attachments.insert a.id a }

/-- Enter a message record. -/
def putMessage (s : Records) (m : Message) : Records :=
  { s with messages := s.messages.insert m.id m }

/-- Enter an account record. -/
def putAccount (s : Records) (a : Account) : Records :=
  { s with accounts := s.accounts.insert a.id a }

/-- Take out an attachment record. -/
def eraseAttachment (s : Records) (id : Int) : Records :=
  { s with attachments := s.attachments.erase id }

/-- Take out a message record. -/
def eraseMessage (s : Records) (id : Int) : Records :=
  { s with messages := s.messages.erase id }

/-- Take out an account record. -/
def eraseAccount (s : Records) (id : Int) : Records :=
  { s with accounts := s.accounts.erase id }

/-- Apply an update to an attachment record, which has to exist. -/
def update (s : Records) (id : Int) (u : Update) : Except StoreError Records :=
  match s.attachments.get? id with
  | none => .error (.notFound id)
  | some a => .ok { s with attachments := s.attachments.insert id (u.apply a) }

/-- The attachments whose download is asked for, in ascending order. -/
def pending (s : Records) : List Attachment := s.attachments.values.filter (·.isPending)

/-- The first `limit` attachments, newest first, that nobody asked for, that carry no flag and
that are not downloaded yet. -/
def newest (s : Records) (limit : Nat) : List Attachment :=
  (s.attachments.values.reverse.filter fun a => !a.isDownloaded && a.flags.isEmpty).take limit

/-- Whether some attachment of a message is not downloaded yet. -/
def hasUnloaded (s : Records) (message : Int) : Bool :=
  s.attachments.values.any fun a => a.message == message && !a.isDownloaded

end Records

end MailFetch

import MailFetch.Files.Usage
import MailFetch.Network
import MailFetch.Records
import MailFetch.Status
import MailFetch.Transfer.Download

/-! # The world around the scheduler

All that the scheduler asks and uses but does not own: the clock, the record store, the network,
the storage and the carrier of transfers. Any of its calls can be made to fail, for all records or
for one, and look-ups can be held back.

* `World.lookUp` and its fellows answer the scheduler's questions; they fail where a fault is set
  and are otherwise truthful. -/

namespace MailFetch

/-- The calls of the scheduler that can fail. -/
inductive Call
  | attachment
  | message
  | account
  | accountCount
  | updateAttachment
  | deleteAttachment
  | pendingAttachments
  | candidates
  | hasUnloaded
  | startTransfer
  | sendMail
  | totalBytes
  | availableBytes
  | accountUsage
  /-- A look-up that brings down the task that makes it. -/
  | collapse
deriving DecidableEq, Inhabited

/-- A fault of one call, for all records or for one. -/
structure Fault where
  call : Call
  id : Option Int := none
deriving DecidableEq, Inhabited

/-- The look-ups that can be held back. -/
inductive LookUp
  | attachment
  | message
  | account
deriving DecidableEq, Inhabited

/-- A look-up that is held back: of which kind, and of which record. -/
structure Hold where
  kind : LookUp
  id : Int
deriving DecidableEq, Inhabited

/-- A report that a carrier sends while a transfer is being handed over. -/
structure EarlyReport where
  status : Status
  percent : Nat
  /-- How many transfers it is still sent for. -/
  left : Nat
deriving DecidableEq, Inhabited

/-- The capacity of the storage, in bytes. -/
structure Capacity where
  total : Nat := 0
  available : Nat := 0
deriving DecidableEq, Inhabited

/-- **Who carries out transfers.** -/
inductive Carrier
  /-- Transfers are only noted down. The first `failing` ones are refused, and a report may come
  before they are answered. -/
  | noting (failing : Nat) (early : Option EarlyReport)
  /-- Transfers are carried out over the web, into a cache in a file tree. -/
  | web (files : FileTree) (cache : Path)
deriving DecidableEq, Inhabited

/-- **The world around the scheduler.** Times are in nanoseconds. -/
structure World where
  now : Nat := 0
  records : Records := {}
  connectivity : Connectivity := {}
  capacity : Capacity := {}
  /-- The bytes that an exact count finds for each account whose files are not in a file tree. -/
  stored : Table Nat := .empty
  carrier : Carrier := .noting 0 none
  faults : List Fault := []
  hold : Option Hold := none
deriving DecidableEq, Inhabited

namespace World

/-- Whether a call fails for a record. -/
def fails (w : World) (call : Call) (id : Int) : Bool :=
  w.faults.any fun f => f.call == call && (f.id.isNone || f.id == some id)

/-- Whether a call that is about no record fails. -/
def failsAlways (w : World) (call : Call) : Bool :=
  w.faults.any fun f => f.call == call

/-- The error of a store call that a fault is set for. -/
def outage : StoreError := .unavailable "injected"

/-- Whether a look-up is held back. -/
def holds (w : World) (kind : LookUp) (id : Int) : Bool := w.hold == some ⟨kind, id⟩

/-- Look up an attachment. -/
def attachment (w : World) (id : Int) : Except StoreError (Option Attachment) :=
  if w.fails .attachment id then .error outage else .ok (w.records.attachments.get? id)

/-- Look up a message. -/
def message (w : World) (id : Int) : Except StoreError (Option Message) :=
  if w.fails .message id then .error outage else .ok (w.records.messages.get? id)

/-- Look up an account. -/
def account (w : World) (id : Int) : Except StoreError (Option Account) :=
  if w.fails .account id then .error outage else .ok (w.records.accounts.get? id)

/-- Count the accounts. -/
def accountCount (w : World) : Except StoreError Nat :=
  if w.failsAlways .accountCount then .error outage else .ok w.records.accounts.size

/-- Find the attachments whose download is asked for. -/
def pending (w : World) : Except StoreError (List Attachment) :=
  if w.failsAlways .pendingAttachments then .error outage else .ok w.records.pending

/-- Find the newest attachments that nobody asked for. -/
def newest (w : World) (limit : Nat) : Except StoreError (List Attachment) :=
  if w.failsAlways .candidates then .error outage else .ok (w.records.newest limit)

/-- Ask whether some attachment of a message is not downloaded yet. -/
def hasUnloaded (w : World) (message : Int) : Except StoreError Bool :=
  if w.fails .hasUnloaded message then .error outage else .ok (w.records.hasUnloaded message)

/-- Update an attachment record; a call that fails changes nothing. -/
def update (w : World) (id : Int) (u : Update) : World :=
  if w.fails .updateAttachment id then w
  else
    match w.records.update id u with
    | .ok records => { w with records := records }
    | .error _ => w

/-- Delete an attachment record. The answer is whether the call went through. -/
def delete (w : World) (id : Int) : Bool × World :=
  if w.fails .deleteAttachment id then (false, w)
  else (true, { w with records := w.records.eraseAttachment id })

/-- Ask for the capacity of the storage. -/
def storage (w : World) : Option Capacity :=
  if w.failsAlways .totalBytes || w.failsAlways .availableBytes then none else some w.capacity

/-- Count the bytes stored for an account. -/
def count (w : World) (account : Int) : Option Nat :=
  if w.fails .accountUsage account then none
  else
    match w.carrier with
    | .noting _ _ => some ((w.stored.get? account).getD 0)
    | .web files cache => some (files.usage 0 (accountDir cache account))

end World

end MailFetch

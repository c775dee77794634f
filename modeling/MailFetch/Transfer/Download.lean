import MailFetch.Files.Tree
import MailFetch.Records
import MailFetch.Transfer.Error
import MailFetch.Transfer.Response

/-! # Downloads into the cache

An attachment is fetched from its location into the cache directory, under its account and its own
number. The bytes go into a partial file beside the final one, which is moved into place when the
whole body has arrived, and removed when anything goes wrong.

* `Job.run` is a whole transfer: the tree it leaves and the reports it sends.
* `percents` are the progress reports on the way: each is higher than the one before, and all are
  below 100, which is kept for the end. -/

namespace MailFetch

/-- A report of a transfer on itself. -/
structure Report where
  message : Int
  id : Int
  status : Status
  percent : Nat
deriving DecidableEq, Inhabited

/-- The directory of an account in the cache. -/
def accountDir (cache : Path) (account : Int) : Path := cache ++ [Text.intText account]

/-- **The place of an attachment in the cache.** -/
def attachmentPath (cache : Path) (account id : Int) : Path :=
  accountDir cache account ++ [Text.intText id]

/-- The place of the partial file beside a final one. -/
def partialPath (p : Path) : Path :=
  p.dropLast ++ (p.getLast?.map fun name => Path.withExtension name "part").toList

/-- What a transfer needs to know of its attachment. -/
structure Job where
  message : Int
  id : Int
  size : Nat
  location : Option String
  path : Path
deriving DecidableEq, Inhabited

/-- How much of a body has arrived after `received` bytes of `total`, in per cent and at most 99.
The product is kept within eight bytes. -/
def percentOf (received total : Nat) : Nat :=
  min (min (received * 100) 0xFFFFFFFFFFFFFFFF / total) 99

/-- **The progress reports** for a body that arrives in pieces, after `received` bytes and a last
report of `last`. -/
def percents (total received last : Nat) : List (List UInt8) → List Nat
  | [] => []
  | piece :: rest =>
    let received := received + piece.length
    let now := percentOf received total
    if 0 < total ∧ last < now then now :: percents total received now rest
    else percents total received last rest

namespace Job

/-- The report of a job. -/
def report (j : Job) (status : Status) (percent : Nat) : Report :=
  ⟨j.message, j.id, status, percent⟩

/-- The length to measure progress by: the declared one if there is one, else the record's. -/
def total (j : Job) (r : Response) : Nat :=
  match r.declared with
  | some n => if 0 < n then n else j.size
  | none => j.size

/-- **Receive a body**: it is written to the partial file piece by piece, with a progress report
whenever the percentage has grown, and moved into place when all of it has arrived. The answer is
the tree, the reports and the failure, if any; a failure leaves no partial file. -/
def receive (j : Job) (r : Response) (t : FileTree) :
    FileTree × List Report × Option TransferError :=
  let part := partialPath j.path
  match t.writeFile part [] with
  | none => (t.removeFile part, [], some (.io "cannot create"))
  | some created =>
    let (filled, written) := created.appendPieces part r.pieces
    let reports := (percents (j.total r) 0 0 written).map (j.report .inProgress)
    if written.length < r.pieces.length then
      (filled.removeFile part, reports, some (.io "cannot write"))
    else if !r.complete then (filled.removeFile part, reports, some .network)
    else
      match filled.moveFile part j.path with
      | none => (filled.removeFile part, reports, some (.io "cannot rename"))
      | some moved => (moved, reports, none)

/-- Fetch an answer: the tree, the progress reports and the failure, if any. -/
def fetch (j : Job) (x : Exchange) (t : FileTree) :
    FileTree × List Report × Option TransferError :=
  match x with
  | .noConnection => (t, [], some .network)
  | .answered r => if !r.isSuccess then (t, [], some (.http r.status)) else j.receive r t

/-- The last report of a job. -/
def lastReport (j : Job) : Option TransferError → Report
  | none => j.report .success 100
  | some e => j.report e.status 0

/-- **A whole transfer**, given what comes of a request to each location: the tree that it leaves,
and its reports in order. -/
def run (j : Job) (web : String → Exchange) (t : FileTree) : FileTree × List Report :=
  match j.location with
  | none => (t, [j.lastReport (some (.noLocation j.id))])
  | some url =>
    let (t', reports, failure) := j.fetch (web url) t
    (t', reports ++ [j.lastReport failure])

end Job

/-- Begin a transfer: look at the record and make the account's directory. -/
def beginTransfer (cache : Path) (lookup : Except StoreError (Option Attachment)) (t : FileTree)
    (account id : Int) : Except TransferError (FileTree × Job) :=
  match lookup with
  | .error e => .error (.unreachable e.message)
  | .ok none => .error (.attachmentNotFound id)
  | .ok (some a) =>
    match t.makeDirs (accountDir cache account) with
    | none => .error (.io "cannot create directory")
    | some t' => .ok (t', ⟨a.message, id, a.size, a.location, attachmentPath cache account id⟩)

end MailFetch

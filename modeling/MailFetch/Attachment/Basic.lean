import MailFetch.Attachment.Flags
import MailFetch.Text.LowerCase

/-! # Attachments, messages and accounts

The records that downloads are about. An attachment belongs to a message and an account; its type
is the one it declares or, where it declares none, the usual one for the suffix of its file
name. -/

namespace MailFetch

/-- How far an attachment has come, as its user sees it. -/
inductive Phase
  | idle
  | downloading
  | saved
  | failed
deriving DecidableEq, Inhabited

namespace Phase

/-- The written form of a phase. -/
def name : Phase → String
  | idle => "idle"
  | downloading => "downloading"
  | saved => "saved"
  | failed => "failed"

/-- All phases. -/
def all : List Phase := [idle, downloading, saved, failed]

/-- The phase with a written form. -/
def ofName? (s : String) : Option Phase := all.find? fun p => p.name == s

end Phase

/-- **An attachment record.** Sizes are in bytes; `location` is where its content is fetched. -/
structure Attachment where
  id : Int
  message : Int
  account : Int
  size : Nat := 0
  flags : Flags := .none
  fileName : Option String := none
  mimeType : Option String := none
  contentId : Option String := none
  location : Option String := none
  phase : Phase := .idle
  downloadedSize : Nat := 0
deriving DecidableEq, Inhabited

/-- A message, the parent of attachments. -/
structure Message where
  id : Int
  account : Int
deriving DecidableEq, Inhabited

/-- An account, the owner of downloads, with its preference on unasked downloads. -/
structure Account where
  id : Int
  background : Bool := false
deriving DecidableEq, Inhabited

/-- The end of a file name from its last dot on. -/
def suffixOf (name : String) : Option String :=
  let rest := name.toList.reverse.takeWhile (· ≠ '.')
  if rest.length = name.length then none
  else some (String.ofList ('.' :: rest.reverse))

/-- The usual type of the files with a suffix. -/
def typeOfSuffix (suffix : Option String) : String :=
  match suffix.map fun s => Text.lower (String.ofList (s.toList.dropWhile (· = '.'))) with
  | some "jpg" | some "jpeg" => "image/jpeg"
  | some "png" => "image/png"
  | some "gif" => "image/gif"
  | some "pdf" => "application/pdf"
  | some "txt" => "text/plain"
  | some "html" | some "htm" => "text/html"
  | some "zip" => "application/zip"
  | some "mp4" => "video/mp4"
  | some "mp3" => "audio/mpeg"
  | _ => "application/octet-stream"

namespace Attachment

/-- Whether the attachment is shown inside its message. -/
def isInline (a : Attachment) : Bool := a.contentId.isSome

/-- Whether the attachment has been downloaded. -/
def isDownloaded (a : Attachment) : Bool := a.phase == .saved

/-- Whether a download has been asked for. -/
def isPending (a : Attachment) : Bool := a.flags.intersects .pending

/-- Whether the attachment is needed to send a forwarded message. -/
def isForwarded (a : Attachment) : Bool := a.flags.contains .forward

/-- The suffix of the file name, with its dot. -/
def suffix (a : Attachment) : Option String := a.fileName.bind suffixOf

/-- Whether the type is taken from the suffix. -/
def infersType (a : Attachment) : Bool := a.mimeType.isNone

/-- The declared type, or the usual one for the suffix. -/
def effectiveType (a : Attachment) : String := a.mimeType.getD (typeOfSuffix a.suffix)

end Attachment

end MailFetch

import MailFetch.Directories
import MailFetch.Policy
import MailFetch.Settings

/-! # Configuration

All that can be set: what is logged, how downloads are scheduled, which are allowed, where they
go, and how they are fetched. -/

namespace MailFetch

/-- **A configuration.** -/
structure Config where
  logLevel : Option String := none
  settings : Settings := {}
  policy : Policy := {}
  /-- The directory of downloaded attachments. -/
  cacheDir : String
  /-- How long a whole transfer may take. -/
  timeoutMs : Nat := 300000
  /-- The name under which transfers are asked for. -/
  userAgent : String := "attachd/0.1.0"
deriving Inhabited

/-- The configuration where nothing is set. -/
def Config.usual (d : Directories) : Config := { cacheDir := d.attachments }

end MailFetch

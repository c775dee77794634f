import MailFetch.Files.Path

/-! # The directories of a user

Where a user keeps data, configuration and what can be fetched again. Each of these places can be
chosen; a choice counts only if it is an absolute path, and otherwise the place is the usual one
below the home directory. -/

namespace MailFetch

/-- **The directories of a user**: the home directory, and the places that have been chosen. -/
structure Directories where
  home : String
  data : Option String := none
  config : Option String := none
  cache : Option String := none
deriving DecidableEq, Inhabited

namespace Directories

/-- A chosen place, or else the usual one below the home directory. -/
def place (d : Directories) (chosen : Option String) (usual : String) : String :=
  (chosen.filter Path.isAbsolute).getD (Path.joined d.home usual)

/-- Where data is kept. -/
def dataDir (d : Directories) : String := d.place d.data ".local/share"

/-- Where configuration is kept. -/
def configDir (d : Directories) : String := d.place d.config ".config"

/-- Where things are kept that can be fetched again. -/
def cacheDir (d : Directories) : String := d.place d.cache ".cache"

/-- The directory of the log. -/
def logDir (d : Directories) : String := Path.joined (Path.joined d.dataDir "attachd") "logs"

/-- The log file. -/
def logFile (d : Directories) : String := Path.joined d.logDir "attachd.log"

/-- The usual cache of attachments. -/
def attachments (d : Directories) : String :=
  Path.joined (Path.joined d.cacheDir "attachd") "attachments"

end Directories

end MailFetch

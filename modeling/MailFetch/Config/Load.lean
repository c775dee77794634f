import MailFetch.Data.Shape
import MailFetch.Yaml.Document

/-! # Finding the configuration

A configuration is read from the file that is asked for, or from the first of the usual files that
holds one; where none does, nothing is set. The log level is wanted earlier than the rest, and is
read on its own.

* `Config.load` gives the whole configuration, `Config.loadLogLevel` its log level alone. -/

namespace MailFetch

/-- **What a look at a file finds.** -/
inductive FileState
  | missing
  | unreadable
  | text (content : String)
deriving DecidableEq, Inhabited

/-- What is wrong with a configuration file. -/
inductive ConfigFault
  | notRead
  | notUnderstood
deriving DecidableEq, Inhabited

/-- The text of a fault. -/
def ConfigFault.message : ConfigFault → String
  | notRead => "Failed to read config file"
  | notUnderstood => "Failed to parse config file"

/-- **Why there is no configuration**: the file, and what is wrong with it. -/
structure ConfigError where
  path : String
  fault : ConfigFault
deriving DecidableEq, Inhabited

/-- The text of an error. -/
def ConfigError.message (e : ConfigError) : String :=
  "Failed to load config from " ++ e.path ++ ": " ++ e.fault.message

namespace Config

/-- The files that may hold a configuration that nobody asked for: one in the working directory,
and one among the user's. -/
def candidates (d : Directories) : List String :=
  [".attachd.yml", Path.joined (Path.joined d.configDir "attachd") "attachd.yml"]

/-- Read a whole configuration. -/
def ofText? (d : Directories) (s : String) : Option Config :=
  (Yaml.read s).bind (Data.config (usual d) false)

/-- Read the log level of a configuration and nothing else of it. -/
def logLevelOfText? (s : String) : Option (Option String) :=
  (Yaml.read s).bind (Data.logLevel false)

/-- The configuration in a file. -/
def ofFile (d : Directories) (file : FileState) : Except ConfigFault Config :=
  match file with
  | .missing | .unreadable => .error .notRead
  | .text s =>
    match ofText? d s with
    | some c => .ok c
    | none => .error .notUnderstood

/-- **Load the configuration**, given what a look at each file finds. A file that is asked for has
to hold one; files that nobody asked for are passed over if they do not. -/
def load (d : Directories) (look : String → FileState) (explicit : Option String) :
    Except ConfigError Config :=
  match explicit with
  | some path => (ofFile d (look path)).mapError fun fault => ⟨path, fault⟩
  | none =>
    .ok (((candidates d).findSome? fun path => (ofFile d (look path)).toOption).getD (usual d))

/-- **Load the log level** from the first file from which one can be read. -/
def loadLogLevel (d : Directories) (look : String → FileState) (explicit : Option String) :
    Option String :=
  let paths := match explicit with
    | some path => [path]
    | none => candidates d
  (paths.findSome? fun path =>
    match look path with
    | .text s => logLevelOfText? s
    | .missing | .unreadable => none).join

end Config

end MailFetch

import MailFetch.CommandLine
import MailFetch.Config.Load
import MailFetch.Json.Printer
import MailFetch.Session
import MailFetch.Yaml.Printer

/-! # The program

A call of the program either shows the configuration, or runs a scheduler over the records in a seed
file until nothing is left to do or it is interrupted. On the way it lists the requests at fixed
times.

* `begin?` is all that happens up to the start of the scheduler, `Run.step` what happens next.
* `Program.run` is a whole call: what is written, what is left in the file tree, and the code it
  ends with. -/

namespace MailFetch

/-- **What surrounds a call of the program.** -/
structure Surroundings where
  directories : Directories
  workingDir : Path
  files : FileTree := .empty
  /-- The capacity of the storage that holds the cache. -/
  capacity : Capacity := {}
deriving DecidableEq, Inhabited

/-- **What a call of the program leaves.** -/
structure Outcome where
  code : Nat := 0
  /-- What is written as its answer. -/
  output : String := ""
  /-- What is written as warnings and errors, line by line. -/
  complaints : List String := []
  files : FileTree
deriving DecidableEq, Inhabited

namespace Surroundings

/-- What a look at a file finds. -/
def look (e : Surroundings) (path : String) : FileState :=
  let p := Path.read e.workingDir path
  match e.files.readText p with
  | some s => .text s
  | none => if e.files.contains p then .unreadable else .missing

/-- Make a directory and the missing ones on the way to it. -/
def makeDirs (e : Surroundings) (path : String) : Option Surroundings :=
  let start := if Path.isAbsolute path then [] else e.workingDir
  (e.files.makeWay start (Path.names path)).map fun files => { e with files := files }

/-- Write a file. -/
def writeFile (e : Surroundings) (path : String) (content : List UInt8) : Option Surroundings :=
  let files := e.files.writeFile (Path.read e.workingDir path) content
  files.map fun files => { e with files := files }

end Surroundings

/-! ### Logging -/

/-- The capital form of a letter, as far as the names of log levels go: beyond the letters from a
to z, only the one without its dot has a capital form that occurs in them. -/
def capital (c : Char) : Char := if c = 'ı' then 'I' else c.toUpper

/-- Whether a log level has a known name, in any letter case. -/
def isLogLevel (s : String) : Bool :=
  String.ofList (s.toList.map capital) ∈ ["TRACE", "DEBUG", "INFO", "WARN", "WARNING", "ERROR"]

/-- The complaint about a log level without a known name. -/
def logLevelWarning (level : Option String) : List String :=
  match level with
  | some s =>
    if isLogLevel s then []
    else ["Warning: Unknown log-level '" ++ s ++ "', defaulting to INFO"]
  | none => []

/-- Start the log. The answer is what surrounds the program then, if that works, and the
complaints. -/
def startLog (e : Surroundings) (level : Option String) : Option Surroundings × List String :=
  match e.makeDirs e.directories.logDir with
  | none => (none, [])
  | some e => (e.writeFile e.directories.logFile [], logLevelWarning level)

/-! ### Running a scheduler -/

/-- Whether a name can be sent along with a request: it has no characters that steer a device but
tabs. -/
def isHeaderText (s : String) : Bool := s.toList.all fun c => c = '\t' || (' ' ≤ c && c ≠ '\x7f')

/-- **A scheduler at work.** Times are in milliseconds since its start. -/
structure Run where
  session : Session
  /-- The time between two listings. -/
  every : Nat
  /-- When the next listing is due. -/
  listing : Option Nat
  /-- When it is looked next whether anything is left to do. -/
  check : Option Nat
  /-- How often in a row nothing was left to do. -/
  quiet : Nat := 0
  /-- When the call is interrupted. -/
  interrupt : Option Nat
  /-- Whether the call is over. -/
  ended : Bool := false
deriving Inhabited

/-- The time between two looks at whether anything is left to do. -/
def checkInterval : Nat := 500

namespace Run

/-- When something happens next, of the things that the program waits for. -/
def nextTime (r : Run) : Option Nat :=
  (r.interrupt.toList ++ r.listing.toList ++ r.check.toList).min?

/-- Let the time come. -/
def waitUntil (r : Run) (t : Nat) : Run :=
  { r with session := r.session.advance (millis t - r.session.state.world.now) }

/-- The end: the scheduler is stopped, and the requests are listed. -/
def finish (r : Run) (farewell : String) : String × Run :=
  let session := r.session.stop
  (farewell ++ "\n" ++ session.state.dump, { r with session := session, ended := true })

/-- The listing, if it is due. -/
def list (r : Run) (t : Nat) : String × Run :=
  if r.listing = some t then (r.session.state.dump, { r with listing := some (t + r.every) })
  else ("", r)

/-- Whether nothing waits and nothing is in flight. -/
def isQuiet (r : Run) : Bool :=
  r.session.state.scheduler.queue.isEmpty && r.session.state.scheduler.flights.isEmpty

/-- The look at whether anything is left to do, if it is due. -/
def lookAround (r : Run) (t : Nat) : Run :=
  if r.check = some t then
    { r with check := some (t + checkInterval), quiet := if r.isQuiet then r.quiet + 1 else 0 }
  else r

/-- **What happens next**, and what is written then. Two looks in a row that find nothing left to do
are the end. -/
def step (r : Run) : String × Run :=
  match r.nextTime with
  | none => ("", { r with ended := true })
  | some t =>
    let r := r.waitUntil t
    if r.interrupt = some t then r.finish "Stopping..."
    else
      let (text, r) := r.list t
      let r := r.lookAround t
      if 2 ≤ r.quiet then
        let (farewell, r) := r.finish "Idle, exiting"
        (text ++ farewell, r)
      else (text, r)

/-- Go on to the end, in at most `fuel` steps. -/
def goOn (text : String) : Nat → Run → String × Run
  | 0, r => (text, r)
  | fuel + 1, r =>
    if r.ended then (text, r)
    else
      let (more, r) := r.step
      goOn (text ++ more) fuel r

/-- The file tree as the transfers leave it. -/
def files (r : Run) : FileTree :=
  match r.session.state.world.carrier with
  | .web files _ => files
  | .noting _ _ => .empty

end Run

/-- How a call of the program begins: it is over at once, or a scheduler is at work. -/
inductive Beginning
  | done (o : Outcome)
  | running (greeting : String) (complaints : List String) (r : Run)
deriving Inhabited

/-- Start a scheduler over a seed. -/
def beginRun (e : Surroundings) (c : Config) (seed : Seed) (exitWhenIdle : Bool)
    (dumpInterval : Nat) (network : Network) (interrupt : Option Nat) : String × Run :=
  let world : World := {
    records := .ofSeed seed
    connectivity := { network := network }
    capacity := e.capacity
    carrier := .web e.files (Path.read e.workingDir c.cacheDir) }
  let session := Session.ofWorld { settings := c.settings, policy := c.policy } world
  ("attachd scheduler started: " ++ Text.natText seed.attachments.length ++
      " attachments, network " ++ network.name ++ ", cache " ++ c.cacheDir ++ "\n",
    { session := session.start.getD session
      every := dumpInterval * 1000
      listing := if 0 < dumpInterval then some 0 else none
      check := if exitWhenIdle then some 0 else none
      interrupt := interrupt })

/-- All that comes before the start of a scheduler can fail. -/
def prepare (e : Surroundings) (c : Config) (seedPath : String) :
    Except (String × Surroundings) (Seed × Surroundings) :=
  let seed := match e.look seedPath with
    | .text s => (Yaml.read s).bind (Data.seed false)
    | .missing | .unreadable => none
  match seed with
  | none => .error ("Failed to load seed from " ++ seedPath, e)
  | some seed =>
    match e.makeDirs c.cacheDir with
    | none => .error ("Failed to create cache directory", e)
    | some e =>
      if isHeaderText c.userAgent then .ok (seed, e)
      else .error ("Failed to create HTTP backend", e)

/-- What is said about a command line that cannot be followed. -/
def UsageError.outcome (u : UsageError) (files : FileTree) : Outcome :=
  match u with
  | .helpWanted => { output := "Usage: ad [OPTIONS] <COMMAND>\n", files := files }
  | .versionWanted => { output := "ad\n", files := files }
  | _ => { code := 2, complaints := ["error: Usage: ad [OPTIONS] <COMMAND>"], files := files }

/-- **The beginning of a call**, with the words of its command line. -/
def begin? (e : Surroundings) (words : List String) (interrupt : Option Nat) : Beginning :=
  match CommandLine.parse words with
  | .error u => .done (u.outcome e.files)
  | .ok line =>
    let early := Config.loadLogLevel e.directories e.look line.config
    let fail := fun (e : Surroundings) (warnings : List String) (text : String) =>
      Beginning.done { code := 1, complaints := warnings ++ ["Error: " ++ text], files := e.files }
    match startLog e (line.logLevel.or early) with
    | (none, complaints) => fail e complaints "Failed to setup logging"
    | (some e, complaints) =>
      match Config.load e.directories e.look line.config with
      | .error _ => fail e complaints "Failed to load configuration"
      | .ok c =>
        match line.command with
        | .showConfig json =>
          let node := Data.configNode c
          let text := if json then Json.write node else Yaml.write node
          .done { output := text ++ "\n", complaints := complaints, files := e.files }
        | .run seedPath exitWhenIdle dumpInterval network =>
          match prepare e c seedPath with
          | .error (text, e) => fail e complaints text
          | .ok (seed, e) =>
            let (greeting, r) := beginRun e c seed exitWhenIdle dumpInterval network interrupt
            .running greeting complaints r

/-- How many steps a call gets. -/
def Run.patience : Nat := 100000000

/-- **A whole call of the program.** -/
def Program.run (e : Surroundings) (words : List String) (interrupt : Option Nat) : Outcome :=
  match begin? e words interrupt with
  | .done o => o
  | .running greeting complaints r =>
    let (text, r) := r.goOn greeting Run.patience
    { output := text, complaints := complaints, files := r.files }

end MailFetch

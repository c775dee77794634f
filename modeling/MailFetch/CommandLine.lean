import MailFetch.Network
import MailFetch.Text.Decimal

/-! # The command line

The words of a command line are options and the name of a command, which has options of its own.
An option is called by its word or its letter; the value of one that takes a value follows it or is
attached to it.

* `CommandLine.parse` reads the words, or tells what is wrong with them. -/

namespace MailFetch

/-- The options. -/
inductive Opt
  | config
  | logLevel
  | help
  | version
  | seed
  | exitWhenIdle
  | dumpInterval
  | network
  | json
deriving DecidableEq, Inhabited

/-- Where options stand: before a command, or behind one of the two. -/
inductive Scope
  | top
  | run
  | showConfig
deriving DecidableEq, Inhabited

/-- **What is wrong with a command line**, or what it asks for instead of a command. -/
inductive UsageError
  | helpWanted
  | versionWanted
  /-- There is nothing at all. -/
  | nothingGiven
  | commandMissing
  | commandUnknown
  | argumentUnknown
  | optionMissing
  | valueMissing
  | valueInvalid
  | valueUnwanted
  | repeated
deriving DecidableEq, Inhabited

/-- **What a command line asks for.** -/
inductive Command
  | run (seed : String) (exitWhenIdle : Bool) (dumpInterval : Nat) (network : Network)
  | showConfig (json : Bool)
deriving DecidableEq, Inhabited

/-- **A command line that has been read.** -/
structure CommandLine where
  config : Option String
  logLevel : Option String
  command : Command
deriving DecidableEq, Inhabited

namespace Opt

/-- Whether an option takes a value. -/
def takesValue : Opt → Bool
  | config | logLevel | seed | dumpInterval | network => true
  | help | version | exitWhenIdle | json => false

/-- The word of an option. -/
def word : Opt → String
  | config => "config"
  | logLevel => "log-level"
  | help => "help"
  | version => "version"
  | seed => "seed"
  | exitWhenIdle => "exit-when-idle"
  | dumpInterval => "dump-interval"
  | network => "network"
  | json => "json"

/-- The letter of an option, if it has one. -/
def letter : Opt → Option Char
  | config => some 'c'
  | logLevel => some 'l'
  | help => some 'h'
  | version => some 'V'
  | seed => some 's'
  | dumpInterval => some 'd'
  | network => some 'n'
  | exitWhenIdle | json => none

end Opt

/-- Read a number of seconds. -/
def readSeconds (s : String) : Option Nat :=
  let digits := match s.toList with
    | '+' :: rest => rest
    | cs => cs
  (Text.readNat digits).filter (· ≤ 0xFFFFFFFFFFFFFFFF)

namespace Scope

/-- The options in a scope. Some are known everywhere. -/
def options : Scope → List Opt
  | top => [.config, .logLevel, .help, .version]
  | run => [.config, .logLevel, .help, .seed, .exitWhenIdle, .dumpInterval, .network]
  | showConfig => [.config, .logLevel, .help, .json]

/-- The commands that can be called in a scope. -/
def commands : Scope → List (String × Scope)
  | top => [("run", run), ("show-config", showConfig)]
  | run | showConfig => []

/-- The option with a word. -/
def byWord (s : Scope) (w : String) : Option Opt := s.options.find? fun o => o.word == w

/-- The option with a letter. -/
def byLetter (s : Scope) (c : Char) : Option Opt := s.options.find? fun o => o.letter == some c

/-- What is wrong with a word that is neither an option nor a value. -/
def stray (s : Scope) (behindDashes : Bool) (w : String) : UsageError :=
  match s with
  | top =>
    if behindDashes ∧ (w = "help" ∨ (s.commands.lookup w).isSome) then .argumentUnknown
    else .commandUnknown
  | run | showConfig => .argumentUnknown

end Scope

/-- The options that have been read in a scope. -/
structure Found where
  values : List (Opt × String) := []
  /-- The last option, of which the value is not looked at yet, or not even there. -/
  pending : Option (Opt × Option String) := none
deriving DecidableEq, Inhabited

namespace Found

/-- Whether the value of an option is one. -/
def check (o : Opt) (v : String) : Except UsageError Unit :=
  match o with
  | .config | .seed => if v = "" then .error .valueMissing else .ok ()
  | .dumpInterval => if (readSeconds v).isSome then .ok () else .error .valueInvalid
  | .network =>
    match Network.parse v with
    | .ok _ => .ok ()
    | .error _ => .error .valueInvalid
  | _ => .ok ()

/-- Take an option. -/
def put (f : Found) (o : Opt) (v : String) : Except UsageError Found :=
  if (f.values.lookup o).isSome then .error .repeated
  else (check o v).map fun _ => { f with values := (o, v) :: f.values }

/-- Take the option that is pending. -/
def settle (f : Found) : Except UsageError Found :=
  match f.pending with
  | none => .ok f
  | some (_, none) => .error .valueMissing
  | some (o, some v) => { f with pending := none }.put o v

/-- An option without a value is called. -/
def call (f : Found) (o : Opt) : Except UsageError Found :=
  f.settle.bind fun f =>
    match o with
    | .help => .error .helpWanted
    | .version => .error .versionWanted
    | o => f.put o ""

/-- An option with a value is called; the value may be attached to it. -/
def callWith (f : Found) (o : Opt) (attached : Option String) : Except UsageError Found :=
  f.settle.bind fun f =>
    match attached with
    | some v => f.put o v
    | none => .ok { f with pending := some (o, none) }

/-- Whether a value is to come. -/
def isWaiting (f : Found) : Bool :=
  match f.pending with
  | some (_, none) => true
  | _ => false

/-- A value comes. -/
def fill (f : Found) (v : String) : Found :=
  { f with pending := f.pending.map fun (o, _) => (o, some v) }

/-- The value of an option. -/
def get? (f : Found) (o : Opt) : Option String := f.values.lookup o

/-- Whether an option has been called. -/
def has (f : Found) (o : Opt) : Bool := (f.get? o).isSome

end Found

/-- Read an option that is called by its word, perhaps with a value behind an equals sign. -/
def readWord (s : Scope) (f : Found) (text : List Char) : Except UsageError Found :=
  let word := text.takeWhile (· ≠ '=')
  let attached := match text.dropWhile (· ≠ '=') with
    | _ :: rest => some (String.ofList rest)
    | [] => none
  match s.byWord (String.ofList word) with
  | none => .error .argumentUnknown
  | some o =>
    if o.takesValue then f.callWith o attached
    else if attached.isSome then .error .valueUnwanted
    else f.call o

/-- Read options that are called by their letters. The value of the last one may be attached, with
or without an equals sign. -/
def readLetters (s : Scope) (f : Found) : List Char → Except UsageError Found
  | [] => .ok f
  | c :: rest =>
    match s.byLetter c with
    | none => .error .argumentUnknown
    | some o =>
      if o.takesValue then
        f.callWith o (match rest with
          | [] => none
          | '=' :: v => some (String.ofList v)
          | v => some (String.ofList v))
      else (f.call o).bind fun f => readLetters s f rest

/-- Read the words of a scope. The answer tells at which command they stop, and what comes behind
it. -/
def readScope (s : Scope) (f : Found) :
    List String → Except UsageError (Found × Option (Scope × List String))
  | [] => f.settle.map fun f => (f, none)
  | w :: rest =>
    if ¬ f.isWaiting ∧ s = .top ∧ w = "help" then
      match rest with
      | [] => .error .helpWanted
      | [c] =>
        if c = "help" ∨ (s.commands.lookup c).isSome then .error .helpWanted
        else .error .commandUnknown
      | _ => .error .commandUnknown
    else
      match if f.isWaiting then none else s.commands.lookup w with
      | some inner => .ok (f, some (inner, rest))
      | none =>
        match w.toList with
        | ['-', '-'] =>
          match rest with
          | [] => f.settle.map fun f => (f, none)
          | next :: _ => .error (s.stray true next)
        | '-' :: '-' :: text => (readWord s f text).bind fun f => readScope s f rest
        | '-' :: c :: text => (readLetters s f (c :: text)).bind fun f => readScope s f rest
        | _ => if f.isWaiting then readScope s (f.fill w) rest else .error (s.stray false w)

/-- What a command with its options asks for. -/
def commandOf (s : Scope) (f : Found) : Except UsageError Command :=
  match s with
  | .top => .error .commandMissing
  | .run =>
    match f.get? .seed with
    | none => .error .optionMissing
    | some seed =>
      let network := ((f.get? .network).bind fun v => (Network.parse v).toOption).getD .unmetered
      let interval := ((f.get? .dumpInterval).bind readSeconds).getD 10
      .ok (.run seed (f.has .exitWhenIdle) interval network)
  | .showConfig => .ok (.showConfig (f.has .json))

/-- **Read a command line.** Where an option that is known everywhere is given both before and
behind the command, the one behind it counts. -/
def CommandLine.parse (words : List String) : Except UsageError CommandLine := do
  let (outer, command) ← readScope .top {} words
  match command with
  | none => if outer.values.isEmpty then .error .nothingGiven else .error .commandMissing
  | some (s, rest) =>
    let (inner, _) ← readScope s {} rest
    let command ← commandOf s inner
    let outer ← outer.settle
    return {
      config := (inner.get? .config).or (outer.get? .config)
      logLevel := (inner.get? .logLevel).or (outer.get? .logLevel)
      command := command }

end MailFetch

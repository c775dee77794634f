import MailFetch.Config.Basic
import MailFetch.Data.Node
import MailFetch.Records

/-! # Records as data

How the records of the store and the configuration are read from trees of data. Where `positional`
is set, a record may also be given as the list of its fields.

* `configNode` writes a configuration as a tree of data. -/

namespace MailFetch.Data

/-- The largest number in eight bytes. -/
def maxWord : Nat := 0xFFFFFFFFFFFFFFFF

/-- The largest number in four bytes. -/
def maxHalf : Nat := 0xFFFFFFFF

/-- The number of a record. -/
def recordId (n : Node) : Option Int := n.int? (-0x8000000000000000) 0x7FFFFFFFFFFFFFFF

/-- A number of bytes, of milliseconds or of things. -/
def amount (n : Node) : Option Nat := n.nat? maxWord

/-- A small count. -/
def smallCount (n : Node) : Option UInt32 := (n.nat? maxHalf).map fun n => UInt32.ofNat n

/-- A flag word. -/
def flagWord (n : Node) : Option Flags := (n.nat? maxHalf).map .ofNat

/-- The keys of an attachment, in order. -/
def attachmentKeys : List String :=
  ["id", "message", "account", "size", "flags", "file-name", "mime-type", "content-id", "location",
    "ui-state", "downloaded-size"]

/-- Read an attachment. -/
def attachment (positional : Bool) (n : Node) : Option Attachment := do
  let f ← n.fields positional attachmentKeys
  return {
    id := ← f.need "id" recordId
    message := ← f.need "message" recordId
    account := ← f.need "account" recordId
    size := ← f.get "size" 0 amount
    flags := ← f.get "flags" .none flagWord
    fileName := ← f.get "file-name" none (Node.optional Node.text?)
    mimeType := ← f.get "mime-type" none (Node.optional Node.text?)
    contentId := ← f.get "content-id" none (Node.optional Node.text?)
    location := ← f.get "location" none (Node.optional Node.text?)
    phase := ← f.get "ui-state" .idle (Node.name? Phase.ofName?)
    downloadedSize := ← f.get "downloaded-size" 0 amount }

/-- Read a message. -/
def message (positional : Bool) (n : Node) : Option Message := do
  let f ← n.fields positional ["id", "account"]
  return { id := ← f.need "id" recordId, account := ← f.need "account" recordId }

/-- Read an account. -/
def account (positional : Bool) (n : Node) : Option Account := do
  let f ← n.fields positional ["id", "background-attachments"]
  return {
    id := ← f.need "id" recordId
    background := ← f.get "background-attachments" false Node.bool? }

/-- Read what a store starts with. -/
def seed (positional : Bool) (n : Node) : Option Seed := do
  let f ← n.fields positional ["accounts", "messages", "attachments"]
  return {
    accounts := ← f.get "accounts" [] (Node.list? (account positional))
    messages := ← f.get "messages" [] (Node.list? (message positional))
    attachments := ← f.get "attachments" [] (Node.list? (attachment positional)) }

/-- Read a policy. -/
def policy (positional : Bool) (n : Node) : Option Policy := do
  let f ← n.fields positional ["max-attachment-bytes", "blocked-mime-types"]
  return {
    maxBytes := ← f.get "max-attachment-bytes" none (Node.optional amount)
    blockedTypes := ← f.get "blocked-mime-types" [] (Node.list? Node.text?) }

/-- The keys of the settings, in order. -/
def settingsKeys : List String :=
  ["max-concurrent", "max-per-account", "callback-timeout-ms", "watchdog-interval-ms",
    "connection-retry-delay-ms", "connection-delay-threshold", "connection-max-retries",
    "max-download-retries", "idle-wait-secs", "prefetch-candidates", "prefetch-min-free-ratio",
    "prefetch-max-storage-ratio"]

/-- Read the settings of the scheduler. -/
def settings (positional : Bool) (n : Node) : Option Settings := do
  let f ← n.fields positional settingsKeys
  let usual : Settings := {}
  return {
    maxConcurrent := ← f.get "max-concurrent" usual.maxConcurrent amount
    maxPerAccount := ← f.get "max-per-account" usual.maxPerAccount amount
    callbackTimeoutMs := ← f.get "callback-timeout-ms" usual.callbackTimeoutMs amount
    watchdogIntervalMs := ← f.get "watchdog-interval-ms" usual.watchdogIntervalMs amount
    retryDelayMs := ← f.get "connection-retry-delay-ms" usual.retryDelayMs amount
    delayThreshold := ← f.get "connection-delay-threshold" usual.delayThreshold smallCount
    maxRetries := ← f.get "connection-max-retries" usual.maxRetries smallCount
    maxFailures := ← f.get "max-download-retries" usual.maxFailures smallCount
    idleWaitSecs := ← f.get "idle-wait-secs" usual.idleWaitSecs amount
    candidates := ← f.get "prefetch-candidates" usual.candidates amount
    minFreeRatio := ← f.get "prefetch-min-free-ratio" usual.minFreeRatio Node.float?
    maxStorageRatio := ← f.get "prefetch-max-storage-ratio" usual.maxStorageRatio Node.float? }

/-- Read the directory of downloaded attachments. -/
def storage (usual : String) (positional : Bool) (n : Node) : Option String := do
  let f ← n.fields positional ["cache-dir"]
  f.get "cache-dir" usual Node.text?

/-- Read how long a transfer may take, and the name it is asked for under. -/
def http (usual : Config) (positional : Bool) (n : Node) : Option (Nat × String) := do
  let f ← n.fields positional ["timeout-ms", "user-agent"]
  let timeoutMs ← f.get "timeout-ms" usual.timeoutMs amount
  let userAgent ← f.get "user-agent" usual.userAgent Node.text?
  return (timeoutMs, userAgent)

/-- The key of the log level. -/
def logLevelKey : String := "log-level"

/-- Read a log level, which may be absent. -/
def logLevelField (f : Fields) : Option (Option String) :=
  f.get logLevelKey none (Node.optional Node.text?)

/-- Read a configuration, with the usual one for what is not set. -/
def config (usual : Config) (positional : Bool) (n : Node) : Option Config := do
  let f ← n.fields positional [logLevelKey, "scheduler", "policy", "storage", "http"]
  let logLevel ← logLevelField f
  let settings ← f.get "scheduler" usual.settings (settings positional)
  let policy ← f.get "policy" usual.policy (policy positional)
  let cacheDir ← f.get "storage" usual.cacheDir (storage usual.cacheDir positional)
  let unset := (usual.timeoutMs, usual.userAgent)
  let (timeoutMs, userAgent) ← f.get "http" unset (http usual positional)
  return { logLevel, settings, policy, cacheDir, timeoutMs, userAgent }

/-- Read the log level of a configuration and nothing else of it. -/
def logLevel (positional : Bool) (n : Node) : Option (Option String) := do
  logLevelField (← n.fields positional [logLevelKey])

/-! ### Writing -/

/-- A record of named values. -/
def recordNode (fields : List (String × Scalar)) : Node :=
  .map (fields.map fun (k, v) => (.scalar (.text k), .scalar v))

/-- The settings of the scheduler as data. -/
def settingsNode (s : Settings) : Node :=
  recordNode <| settingsKeys.zip [.int s.maxConcurrent, .int s.maxPerAccount,
    .int s.callbackTimeoutMs, .int s.watchdogIntervalMs, .int s.retryDelayMs,
    .int s.delayThreshold.toNat, .int s.maxRetries.toNat, .int s.maxFailures.toNat,
    .int s.idleWaitSecs, .int s.candidates, .float s.minFreeRatio, .float s.maxStorageRatio]

/-- A policy as data. -/
def policyNode (p : Policy) : Node :=
  .map [(.scalar (.text "max-attachment-bytes"),
      .scalar (match p.maxBytes with
        | some n => .int n
        | none => .null)),
    (.scalar (.text "blocked-mime-types"),
      .list (p.blockedTypes.map fun s => .scalar (.text s)))]

/-- **A configuration as data.** -/
def configNode (c : Config) : Node :=
  .map [(.scalar (.text logLevelKey), .scalar (match c.logLevel with
      | some s => .text s
      | none => .null)),
    (.scalar (.text "scheduler"), settingsNode c.settings),
    (.scalar (.text "policy"), policyNode c.policy),
    (.scalar (.text "storage"), recordNode [("cache-dir", .text c.cacheDir)]),
    (.scalar (.text "http"),
      recordNode [("timeout-ms", .int c.timeoutMs), ("user-agent", .text c.userAgent)])]

end MailFetch.Data

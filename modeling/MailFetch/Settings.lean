/-! # Scheduler settings

The limits and waiting times of the scheduler. They are given in milliseconds and seconds; the
clock counts nanoseconds. -/

namespace MailFetch

/-- **The settings of the scheduler.** -/
structure Settings where
  /-- How many downloads may be in flight. -/
  maxConcurrent : Nat := 2
  /-- How many downloads of one account may be in flight. -/
  maxPerAccount : Nat := 1
  /-- The silence after which a download counts as stalled. -/
  callbackTimeoutMs : Nat := 30000
  /-- The time between two looks for stalled downloads. -/
  watchdogIntervalMs : Nat := 20000
  /-- The wait before a delayed retry. -/
  retryDelayMs : Nat := 10000
  /-- How many retries after connection errors go without a wait. -/
  delayThreshold : UInt32 := 5
  /-- How many retries a request gets. -/
  maxRetries : UInt32 := 10
  /-- How many failures in a row an attachment may have and still be fetched unasked. -/
  maxFailures : UInt32 := 5
  /-- The longest wait of the main loop before it looks for missed work. -/
  idleWaitSecs : Nat := 1800
  /-- How many records are looked at for a download that nobody asked for. -/
  candidates : Nat := 25
  /-- The part of the storage that has to be free for such downloads. -/
  minFreeRatio : Float := 0.25
  /-- The part of the storage that they may take up, over all accounts. -/
  maxStorageRatio : Float := 0.25
deriving Inhabited

/-- The nanoseconds in a number of milliseconds. -/
def millis (n : Nat) : Nat := n * 1000000

/-- The nanoseconds in a number of seconds. -/
def seconds (n : Nat) : Nat := n * 1000000000

namespace Settings

/-- The silence after which a download counts as stalled. -/
def callbackTimeout (s : Settings) : Nat := millis s.callbackTimeoutMs

/-- The time between two looks for stalled downloads. -/
def watchdogInterval (s : Settings) : Nat := millis s.watchdogIntervalMs

/-- The wait before a delayed retry. -/
def retryDelay (s : Settings) : Nat := millis s.retryDelayMs

/-- The longest wait of the main loop. -/
def idleWait (s : Settings) : Nat := seconds s.idleWaitSecs

/-- A part of a number of bytes, rounded down. -/
def ratioOf (bytes : Nat) (ratio : Float) : Nat := (bytes.toUInt64.toFloat * ratio).toUInt64.toNat

/-- The bytes that have to be free, of `total`, for downloads that nobody asked for. -/
def minAvailable (s : Settings) (total : Nat) : Nat := ratioOf total s.minFreeRatio

/-- The bytes that each of a number of accounts may take up with such downloads. -/
def share (s : Settings) (total accounts : Nat) : Nat :=
  (total.toUInt64.toFloat * s.maxStorageRatio / accounts.toUInt64.toFloat).toUInt64.toNat

end Settings

end MailFetch

import MailFetch.Text.LowerCase

/-! # The network

The class of the network in use decides whether anything is downloaded, and whether downloads that
nobody asked for are. -/

namespace MailFetch

/-- **The class of the network in use.** -/
inductive Network
  | offline
  | metered
  | unmetered
deriving DecidableEq, Inhabited

namespace Network

/-- The written form of a class. -/
def name : Network → String
  | offline => "none"
  | metered => "metered"
  | unmetered => "unmetered"

/-- All classes. -/
def all : List Network := [offline, metered, unmetered]

/-- The class with a written form. -/
def ofName? (s : String) : Option Network := all.find? fun p => p.name == s

/-- Whether there is a network at all. -/
def isConnected (n : Network) : Bool := n != offline

/-- Read a class as it is given on a command line, in any letter case. -/
def parse (s : String) : Except String Network :=
  match Text.lower s with
  | "none" | "offline" => .ok offline
  | "metered" | "cellular" => .ok metered
  | "unmetered" | "wifi" => .ok unmetered
  | _ => .error ("Unknown network: " ++ s ++ ". Use: none, metered, or unmetered")

end Network

/-- The network as the scheduler sees it: its class, and whether background traffic is allowed. -/
structure Connectivity where
  network : Network := .unmetered
  autoSync : Bool := true
deriving DecidableEq, Inhabited

namespace Connectivity

/-- Whether there is a network at all. -/
def isConnected (c : Connectivity) : Bool := c.network.isConnected

/-- Whether downloads that nobody asked for may run. -/
def allowsBackground (c : Connectivity) : Bool := c.network == .unmetered && c.autoSync

end Connectivity

end MailFetch

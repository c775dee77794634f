import MailFetch.Data.Numeral

/-! # Trees of data

What is read from a text of data before it is known what is expected there: scalars, lists and
maps. A quoted scalar is a text; a plain one becomes a number, a truth value or a text only by what
its reader asks for.

* `Node.int?`, `Node.nat?`, `Node.float?`, `Node.bool?`, `Node.text?`: a scalar of an expected kind.
* `Node.optional`: a value that may be absent. -/

namespace MailFetch.Data

/-- A scalar: of a known kind, or plain. -/
inductive Scalar
  | null
  | bool (b : Bool)
  | int (i : Int)
  | float (x : Float)
  | text (s : String)
  | plain (s : String)
deriving Inhabited

/-- **A tree of data.** -/
inductive Node
  | scalar (s : Scalar)
  | list (items : List Node)
  | map (entries : List (Node × Node))
deriving Inhabited

namespace Node

/-- A whole number from `lo` to `hi`. -/
def int? (lo hi : Int) (n : Node) : Option Int :=
  let i := match n with
    | scalar (.int i) => some i
    | scalar (.plain s) => Numeral.integer s.toList
    | _ => none
  i.filter fun i => lo ≤ i ∧ i ≤ hi

/-- A whole number from zero to `hi`. -/
def nat? (hi : Nat) (n : Node) : Option Nat :=
  let i := match n with
    | scalar (.int i) => if 0 ≤ i then some i.toNat else none
    | scalar (.plain s) => Numeral.natural s.toList
    | _ => none
  i.filter (· ≤ hi)

/-- A number that need not be whole. -/
def float? : Node → Option Float
  | scalar (.int i) =>
    if 0 ≤ i then Numeral.scaled i.toNat 0 else (Numeral.scaled i.natAbs 0).map fun x => -x
  | scalar (.float x) => some x
  | scalar (.plain s) => Numeral.real s.toList
  | _ => none

/-- A truth value. -/
def bool? : Node → Option Bool
  | scalar (.bool b) => some b
  | scalar (.plain s) => Numeral.truth s
  | _ => none

/-- A text. -/
def text? : Node → Option String
  | scalar (.text s) => some s
  | scalar (.plain s) => some s
  | _ => none

/-- Whether nothing is there. -/
def isAbsent : Node → Bool
  | scalar .null => true
  | scalar (.plain s) => Numeral.isNull s
  | _ => false

/-- A value that may be absent. -/
def optional {α : Type} (read : Node → Option α) (n : Node) : Option (Option α) :=
  if n.isAbsent then some none else (read n).map some

/-- A list, each item read in the same way; an empty plain scalar is an empty list. -/
def list? {α : Type} (read : Node → Option α) : Node → Option (List α)
  | list items => items.mapM read
  | scalar (.plain "") => some []
  | _ => none

/-- One of several names. -/
def name? {α : Type} (read : String → Option α) (n : Node) : Option α :=
  match n with
  | map [(key, scalar .null)] =>
    match key with
    | scalar (.text s) => read s
    | _ => none
  | n => n.text?.bind read

end Node

/-! ### Records -/

/-- Look up a key of a record. -/
abbrev Fields := String → Option Node

/-- The value under a key, which is not allowed to be there twice. -/
def findField (key : String) : List (Node × Node) → Option (Option Node)
  | [] => some none
  | (k, v) :: rest =>
    if k.text? = some key then
      if rest.any fun e => decide (e.1.text? = some key) then none else some (some v)
    else findField key rest

/-- The fields of a record whose keys are known. The record is a map, in which unknown keys are
passed over and known ones are not repeated; or, where that is allowed, the list of its first
fields in order. An empty plain scalar is a record without fields. -/
def Node.fields (positional : Bool) (keys : List String) (n : Node) : Option Fields :=
  match n with
  | .map entries =>
    if entries.any fun e => e.1.text?.isNone then none
    else
      (keys.mapM fun k => (findField k entries).map fun v => (k, v)).map fun found key =>
        (found.lookup key).join
  | .list items =>
    if positional ∧ items.length ≤ keys.length then some fun key => (keys.zip items).lookup key
    else none
  | .scalar (.plain "") => some fun _ => none
  | _ => none

namespace Fields

/-- A field that has to be there. -/
def need {α : Type} (f : Fields) (key : String) (read : Node → Option α) : Option α :=
  (f key).bind read

/-- A field with a value for its absence. -/
def get {α : Type} (f : Fields) (key : String) (absent : α) (read : Node → Option α) : Option α :=
  match f key with
  | none => some absent
  | some n => read n

end Fields

end MailFetch.Data

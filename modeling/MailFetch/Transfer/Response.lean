/-! # Answers to a request over the web

What comes back for a request: a status code, perhaps a declared length, and the body in the
pieces in which it arrives. -/

namespace MailFetch

/-- **The answer to a request**, with the body as far as it arrived. -/
structure Response where
  status : Nat
  /-- The length that the answer declares for its body. -/
  declared : Option Nat
  pieces : List (List UInt8)
  /-- Whether the whole body arrived. -/
  complete : Bool
deriving DecidableEq, Inhabited

/-- What comes of a request: nothing where there is no connection, or an answer. -/
inductive Exchange
  | noConnection
  | answered (r : Response)
deriving DecidableEq, Inhabited

namespace Response

/-- Whether the status code stands for success. -/
def isSuccess (r : Response) : Bool := 200 ≤ r.status && r.status < 300

/-- Whether answers with this status code never have a body. -/
def isBodiless (status : Nat) : Bool := status = 204 || status = 304

/-- The pieces that the given body arrives in: one, or none if it is empty. -/
def onePiece (body : List UInt8) : List (List UInt8) := if body = [] then [] else [body]

/-- The answer with a body of a declared length. No more than that is read; if the sender has
less, the body is not complete. -/
def ofDeclared (status : Nat) (body : List UInt8) (length : Nat) : Response :=
  if isBodiless status then ⟨status, none, [], true⟩
  else ⟨status, some length, onePiece (body.take length), length ≤ body.length⟩

/-- The answer with a body that lasts until the connection is closed. -/
def ofUnbounded (status : Nat) (body : List UInt8) : Response :=
  if isBodiless status then ⟨status, none, [], true⟩
  else ⟨status, none, onePiece body, true⟩

/-- The answer with a body sent in chunks, which is not complete without the closing one. -/
def ofChunks (status : Nat) (chunks : List (List UInt8)) (closed : Bool) : Response :=
  if isBodiless status then ⟨status, none, [], true⟩
  else ⟨status, none, chunks.filter (· ≠ []), closed⟩

end Response

end MailFetch

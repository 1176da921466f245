import DailyBars.Http.Status

/-! # Requests and replies

The transport is whatever carries requests out: it is given as a function on the state of the
world outside. A request either fails on the way or is replied to; a reply whose body breaks
off has no body.
-/

namespace DailyBars.Http

/-- What a request does at its address. -/
inductive Method where
  | get
  | put
deriving DecidableEq, Repr

/-- A request. -/
structure Request where
  method : Method := .get
  address : String
  userAgent : Option String := none
  body : String := ""
  /-- How long to wait for the reply. -/
  timeout : Duration
deriving Repr

/-- A reply to a request. -/
structure Reply where
  status : Status
  headers : List (String × String) := []
  /-- Absent when it ended before its announced length. -/
  body : Option String := some ""
deriving Repr

/-- Why a request was not replied to. -/
inductive Loss where
  | timeout
  | broken
deriving DecidableEq, Repr

/-- Carries requests out. -/
abbrev Transport (ω : Type) := Request → ω → Except Loss Reply × ω

/-- A transport that reaches nobody. -/
def unreachable {ω : Type} : Transport ω := fun _ world => (.error .broken, world)

/-- The failure of a source that a loss means. -/
def Loss.failure : Loss → Failure
  | timeout => .unavailable "timeout"
  | broken => .unavailable "transport"

/-- The value of a header, whose name counts in any case. -/
def Reply.header? (r : Reply) (name : String) : Option String :=
  (r.headers.find? fun h => h.1.toList.map Char.toLower == name.toList.map Char.toLower).map (·.2)

/-- A computation that asks a source. -/
abbrev Asking (ω : Type) := ExceptT Failure (StateM ω)

/-- The name under which sources are asked. -/
def userAgent : String := "Mozilla/5.0 (Windows NT 10.0; Win64; x64) AppleWebKit/537.36"

/-- The body at an address, asked for on behalf of a symbol. -/
def page {ω : Type} (send : Transport ω) (timeout : Duration) (address symbol : String) :
    Asking ω String := fun world =>
  match send { address, timeout, userAgent := some userAgent } world with
  | (.error loss, world) => (.error loss.failure, world)
  | (.ok reply, world) =>
    match reply.status.failure? (reply.header? "Retry-After") symbol with
    | some failure => (.error failure, world)
    | none =>
      match reply.body with
      | some body => (.ok body, world)
      | none => (.error Loss.broken.failure, world)

end DailyBars.Http

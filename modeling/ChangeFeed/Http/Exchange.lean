import ChangeFeed.Http.Status
import ChangeFeed.Net.Url
import ChangeFeed.Json.Selective
import ChangeFeed.Duration

/-!
# Exchanges with web services

A request as it is put together, the answer to it, and what can go wrong between them. What becomes
of a request on its way is a `Delivery`: the answer, or that none came. `Request.exchange` joins the
two, so that a client is a function from deliveries to results and works with any network.

A request that cannot be built never reaches the network, whatever its delivery: `Request.url` says
which those are, and where the others go.
-/

namespace ChangeFeed.Http

open Net

inductive Method where
  | get | put | post
  deriving DecidableEq, Inhabited

/-- Why an exchange came to nothing. -/
inductive Failure where
  /-- The request could not be built. -/
  | unbuildable (address : Option String)
  /-- No answer came from the address; `late` tells whether the time was up. -/
  | unanswered (address : String) (late : Bool)
  /-- The answer blames the request or the service. -/
  | refused (status : Nat) (reason : Option String) (address : String)
  /-- The body of the answer is not of the expected form. -/
  | undecodable
  deriving DecidableEq, Inhabited

namespace Failure

def text : Failure → String
  | .unbuildable none => "builder error"
  | .unbuildable (some address) => "builder error for url (" ++ address ++ ")"
  | .unanswered address _ => "error sending request for url (" ++ address ++ ")"
  | .refused status reason address =>
    let side := if isClientError status then "client" else "server"
    let status := match reason with
      | some reason => toString status ++ " " ++ reason
      | none => statusText status
    "HTTP status " ++ side ++ " error (" ++ status ++ ") for url (" ++ address ++ ")"
  | .undecodable => "error decoding response body"

def isLate : Failure → Bool
  | .unanswered _ late => late
  | _ => false

end Failure

/-! ## Requests -/

/-- What paths are added to: an address without the slashes at its end. -/
def base (address : String) : String :=
  String.ofList (address.toList.reverse.dropWhile (· = '/')).reverse

/-- A request as it is put together. -/
structure Request where
  method : Method
  address : String
  /-- Names and values that are added to the query of the address. -/
  query : List (String × String)
  headers : List (String × String)
  body : Bytes
  /-- How long the whole exchange may take. -/
  limit : Option Duration
  deriving DecidableEq, Inhabited

/-- Whether a text may be the value of a header: no control but the tab. -/
def isHeaderValue (s : String) : Bool :=
  s.toList.all fun c => c = '\t' || (0x20 ≤ c.toNat && c.toNat ≠ 0x7f)

/-- Whether an address can be asked for: over the web, its name without characters that are written
nowhere else than in a text, and of a length that fits a request. -/
def isAskable (url : Url) : Bool :=
  (url.scheme = "http" || url.scheme = "https") &&
    !(((url.host.map Host.text).getD "").toList.any
      fun c => c = '"' || c = '\x60' || c = '\x7b' || c = '\x7d') &&
    url.text.utf8ByteSize < 65535

namespace Request

/-- Where a request goes, or why it cannot be built. -/
def url (r : Request) : Except Failure Url :=
  match Url.parse? r.address with
  | none => .error (.unbuildable none)
  | some url =>
    if !url.hasHost then .error (.unbuildable (some url.text))
    else if !(r.headers.all fun h => isHeaderValue h.2) then .error (.unbuildable none)
    else
      let url := url.withPairs r.query
      if isAskable url then .ok url else .error (.unbuildable (some url.text))

/-- The body that a request sends; one that cannot be built sends nothing. -/
def sent? (r : Request) : Option Bytes := r.url.toOption.map fun _ => r.body

/-- What a request asks its host for. -/
def target? (r : Request) : Option String := r.url.toOption.map Url.target

end Request

/-! ## Answers -/

/-- An answer. -/
structure Response where
  status : Nat
  /-- The phrase after the status, if it is not the one of the standard. -/
  reason : Option String
  headers : List (String × Bytes)
  body : Bytes
  deriving DecidableEq, Inhabited

namespace Response

/-- The text of a header, whose name may be in any case; a value with other than printable
characters has none. -/
def header? (r : Response) (name : String) : Option String :=
  let same (h : String × Bytes) : Bool := h.1.map Char.toLower = name.map Char.toLower
  match (r.headers.find? same).bind fun h => Bytes.text? h.2 with
  | some s => if s.toList.all fun c => c = '\t' || (' ' ≤ c && c ≤ '~') then some s else none
  | none => none

def number? (r : Response) (name : String) : Option Nat :=
  (r.header? name).bind fun s => Decimal.unsigned? 64 s.toList

/-- The body as a JSON document. -/
def json (r : Response) : Except Failure Json :=
  match Bytes.text? r.body with
  | none => .error .undecodable
  | some s => (Json.parse s).mapError fun _ => .undecodable

/-- The body as a JSON document of which only a shape matters. -/
def part (r : Response) (shape : Json.Shape) : Except Failure Json :=
  match (Bytes.text? r.body).bind (Json.readPart? shape) with
  | some document => .ok document
  | none => .error .undecodable

/-- Refuses an answer that blames the request or the service. -/
def accepted (r : Response) (address : String) : Except Failure Response :=
  if isClientError r.status || isServerError r.status then
    .error (.refused r.status r.reason address)
  else .ok r

end Response

/-- What becomes of a request on its way. -/
inductive Delivery where
  /-- No answer came. -/
  | lost
  /-- The time was up before an answer came. -/
  | late
  | answered (response : Response)
  deriving DecidableEq, Inhabited

def Request.exchange (r : Request) (d : Delivery) : Except Failure Response := do
  let url ← r.url
  match d with
  | .lost => .error (.unanswered url.text false)
  | .late => .error (.unanswered url.text true)
  | .answered response => .ok response

/-- What comes of a request whose answer must not blame anyone. -/
def Request.success (r : Request) (d : Delivery) : Except Failure Response := do
  let url ← r.url
  (← r.exchange d).accepted url.text

end ChangeFeed.Http

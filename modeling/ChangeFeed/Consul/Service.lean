import ChangeFeed.Error
import ChangeFeed.Http.Exchange
import ChangeFeed.Json.Printer
import ChangeFeed.Settings.Coordination

/-!
# Requests to Consul

Consul keeps values by key and sessions that live for a while unless they are renewed. A key may be
claimed for a session, and belongs to it until it is given back or the session ends. A read may ask
to be answered only after the key changed past an index.

Each request has a function that says what its answer means, for any delivery. An answer that blames
anyone or cannot be decoded is a failure; only a missing key is an answer of its own.
-/

namespace ChangeFeed.Consul

/-- How Consul is reached. -/
structure Service where
  address : String
  token : Option String
  /-- How many failed reads in a row the watch of a lock bears. -/
  monitorRetries : Nat
  /-- The pause after a failed read. -/
  monitorRetry : Duration
  deriving DecidableEq, Inhabited

/-- The header with the index of a key. -/
def indexHeader : String := "X-Consul-Index"

def tokenHeader : String := "X-Consul-Token"

/-- How long a read waits for a change. -/
def readWait : Duration := .ofSeconds 60

/-- What a read may take beyond its wait. -/
def readSlack : Duration := .ofSeconds 15

/-- The pause before a free key is claimed again that was refused. -/
def claimPause : Duration := .ofSeconds 1

/-- How long a key stays refused after its session ended, in Consul's words. -/
def lockDelay : String := "1s"

/-- The state of a key. -/
inductive Holding where
  | missing (index : Nat)
  /-- The key exists; a session may hold it. -/
  | present (session : Option String) (index : Nat)
  deriving DecidableEq, Inhabited

namespace Holding

def index : Holding → Nat
  | .missing index => index
  | .present _ index => index

/-- The session that holds the key. -/
def session? : Holding → Option String
  | .missing _ => none
  | .present session _ => session

/-- Whether no session holds the key. -/
def isFree (h : Holding) : Bool := h.session?.isNone

end Holding

namespace Service

/-- The service of settings; the token must fit a header. -/
def create (s : Settings.Coordination) : Except Error Service :=
  if (s.consul.token.map Http.isHeaderValue).getD true then
    .ok ⟨Http.base s.consul.address, s.consul.token, s.monitorRetries, s.monitorRetry⟩
  else .error (.invalidSettings "coordination.consul.token is not a valid header value")

/-- Shows a service without its token. -/
def text (s : Service) : String :=
  "ConsulCoordinator \x7b address: " ++ Text.quoted s.address ++ " \x7d"

/-! ## Requests -/

def ask (s : Service) (method : Http.Method) (path : String) (query : List (String × String)) :
    Http.Request :=
  ⟨method, s.address ++ path, query, s.token.toList.map (tokenHeader, ·), [], none⟩

def keyPath (key : String) : String := "/v1/kv/" ++ key

/-- Asks for the value of a key. -/
def loadRequest (s : Service) (key : String) : Http.Request :=
  s.ask .get (keyPath key) [("raw", "true")]

/-- Writes the value of a key. -/
def storeRequest (s : Service) (key : String) (value : Bytes) : Http.Request :=
  { s.ask .put (keyPath key) [] with body := value }

/-- Creates a session; its keys become free when it ends. -/
def openRequest (s : Service) (name : String) (ttl : Duration) : Http.Request :=
  let body : Json := .object [("Behavior", .string "release"), ("LockDelay", .string lockDelay),
    ("Name", .string name), ("TTL", .string (toString (ttl.millis / 1000) ++ "s"))]
  let r := s.ask .put "/v1/session/create" []
  { r with
    headers := r.headers ++ [("Content-Type", "application/json")]
    body := Bytes.ofText body.compact }

/-- Lengthens the life of a session. -/
def renewRequest (s : Service) (session : String) : Http.Request :=
  s.ask .put ("/v1/session/renew/" ++ session) []

def destroyRequest (s : Service) (session : String) : Http.Request :=
  s.ask .put ("/v1/session/destroy/" ++ session) []

/-- Claims a key for a session. -/
def claimRequest (s : Service) (key session : String) : Http.Request :=
  s.ask .put (keyPath key) [("acquire", session)]

def yieldRequest (s : Service) (key session : String) : Http.Request :=
  s.ask .put (keyPath key) [("release", session)]

/-- Asks for the state of a key once it changed past an index. -/
def readRequest (s : Service) (key : String) (index : Nat) : Http.Request :=
  { s.ask .get (keyPath key)
      [("index", toString index), ("wait", toString (readWait.millis / 1000) ++ "s")] with
    limit := some ⟨readWait.nanos + readSlack.nanos⟩ }

/-! ## Answers -/

def verdict (r : Http.Request) (d : Http.Delivery) : Except Http.Failure Bool := do
  match ← (← r.success d).json with
  | .bool b => pure b
  | _ => .error .undecodable

/-- A document of which one field matters, whose value is a text or left out. -/
def fieldForm (name : String) : Settings.Form (Option String) :=
  .record "entry" none (.field name (.optional .text) id)

/-- The session that was created, or the reason why none was. -/
def opened (s : Service) (name : String) (ttl : Duration) (d : Http.Delivery) :
    Except String String := do
  let response ← ((s.openRequest name ttl).exchange d).mapError Http.Failure.text
  if !Http.isSuccess response.status then .error ("status " ++ Http.statusText response.status)
  else
    let document ← (response.part (fieldForm "ID").shape).mapError Http.Failure.text
    match (fieldForm "ID").ofJson? document with
    | some (some id) => .ok id
    | _ => .error Http.Failure.undecodable.text

/-- Whether a key now belongs to a session. -/
def claimed (s : Service) (key session : String) (d : Http.Delivery) : Except Http.Failure Bool :=
  verdict (s.claimRequest key session) d

/-- Whether a key was given back. -/
def yielded (s : Service) (key session : String) (d : Http.Delivery) : Except Http.Failure Bool :=
  verdict (s.yieldRequest key session) d

/-- What giving a key back comes to. -/
def yieldResult (s : Service) (key session : String) (d : Http.Delivery) : Except Error Unit :=
  match s.yielded key session d with
  | .ok true => .ok ()
  | .ok false => .error (.release key "key not held by this session")
  | .error failure => .error (.release key failure.text)

/-- Whether a session still lives after its renewal. -/
def renewed (s : Service) (session : String) (d : Http.Delivery) : Except Http.Failure Bool :=
  ((s.renewRequest session).exchange d).map fun response => response.status ≠ 404

/-- Whether a session is renewed again: a renewal that fails does not tell that it is gone. -/
def survives (s : Service) (session : String) (d : Http.Delivery) : Bool :=
  match s.renewed session d with
  | .ok lives => lives
  | .error _ => true

/-- The state of a key; an answer without an index keeps the one that was asked for. -/
def read (s : Service) (key : String) (index : Nat) (d : Http.Delivery) :
    Except Http.Failure Holding := do
  let r := s.readRequest key index
  let response ← r.exchange d
  let index := (response.number? indexHeader).getD index
  if response.status = 404 then pure (.missing index)
  else
    match ← (← r.success d).part (.list (fieldForm "Session").shape) with
    | .array entries =>
      match entries.mapM (fieldForm "Session").ofJson? with
      | some sessions => pure (.present sessions.head?.join index)
      | none => .error .undecodable
    | _ => .error .undecodable

/-! ## Values -/

def load (s : Service) (key : String) (d : Http.Delivery) : Except Error (Option Bytes) := do
  let r := s.loadRequest key
  let response ← (r.exchange d).mapError fun f => .coordination r.address f.text
  if response.status = 404 then pure none
  else if Http.isSuccess response.status then pure (some response.body)
  else .error (.checkpoint key ("status " ++ Http.statusText response.status))

/-- Writes the value of a key. -/
def store (s : Service) (key : String) (value : Bytes) (d : Http.Delivery) : Except Error Unit := do
  let r := s.storeRequest key value
  let response ← (r.exchange d).mapError fun f => .coordination r.address f.text
  if Http.isSuccess response.status then pure ()
  else .error (.checkpoint key ("status " ++ Http.statusText response.status))

end Service

end ChangeFeed.Consul

import ChangeFeed.Change
import ChangeFeed.Error
import ChangeFeed.Http.Exchange
import ChangeFeed.Settings.Orchestrator

/-!
# Queries to the orchestrator

The orchestrator is asked for lists and for single records over the web. A list query blocks: it is
answered once something changed after the given index, or after the given time. Its answer has the
new index in a header and the entries as a JSON array, of which those that are no changes are left
out.

* `Service.list` and `Service.record` are the two queries, for any delivery of their requests.
-/

namespace ChangeFeed.Orchestrator

/-- How the orchestrator is reached. -/
structure Service where
  address : String
  token : Option String
  region : Option String
  /-- How long the lookup of a record may take. -/
  limit : Duration
  /-- What a list query may take beyond its wait. -/
  slack : Duration
  deriving DecidableEq, Inhabited

/-- The header with the index of a list. -/
def indexHeader : String := "X-Nomad-Index"

def tokenHeader : String := "X-Nomad-Token"

namespace Service

/-- The service of settings; the token must fit a header. -/
def create (s : Settings.Orchestrator) : Except Error Service :=
  if (s.token.map Http.isHeaderValue).getD true then
    .ok ⟨Http.base s.address, s.token, s.region, s.requestTimeout, s.blockingSlack⟩
  else .error (.invalidSettings "upstream.token is not a valid header value")

/-- Shows a service without its token. -/
def text (s : Service) : String := "NomadClient \x7b address: " ++ Text.quoted s.address ++ " \x7d"

def ask (s : Service) (path : String) (query : List (String × String)) (limit : Duration) :
    Http.Request :=
  let region := s.region.toList.map ("region", ·)
  ⟨.get, s.address ++ path, query ++ region, s.token.toList.map (tokenHeader, ·), [], some limit⟩

def listRequest (s : Service) (resource : Resource) (cursor : Cursor) (limit : Duration) :
    Http.Request :=
  let stale := if cursor.allowStale then [("stale", "true")] else []
  let query := [("index", toString cursor.waitIndex),
    ("wait", toString cursor.waitTime.millis ++ "ms")]
  s.ask resource.listPath (query ++ stale) limit

def recordRequest (s : Service) (resource : Resource) (id : String) : Http.Request :=
  s.ask (resource.recordPath id) [] s.limit

/-- The answer to a request; nothing but the status of plain success is accepted. -/
def answer (r : Http.Request) (d : Http.Delivery) : Except Error Http.Response :=
  match r.exchange d with
  | .error failure => .error (.request r.address failure.text)
  | .ok response =>
    if response.status = 200 then .ok response
    else .error (.status r.address response.status)

/-- An answer that is not of the expected form. -/
def malformed {α : Type} (r : Http.Request) (failure : Http.Failure) : Except Error α :=
  .error (.malformed r.address failure.text)

def list (s : Service) (resource : Resource) (cursor : Cursor) (d : Http.Delivery) :
    Except Error Page := do
  let limit ← (cursor.waitTime.plus s.slack).mapError Error.broken
  let r := s.listRequest resource cursor limit
  let response ← answer r d
  match response.number? indexHeader with
  | none => .error (.missingIndex r.address)
  | some index =>
    match response.json with
    | .ok (.array entries) => .ok ⟨entries.filterMap Change.ofStub?, index⟩
    | .ok _ => malformed r .undecodable
    | .error failure => malformed r failure

def record (s : Service) (resource : Resource) (id : String) (d : Http.Delivery) :
    Except Error Json := do
  let r := s.recordRequest resource id
  match (← answer r d).json with
  | .ok document => .ok document
  | .error failure => malformed r failure

end Service

end ChangeFeed.Orchestrator

import ChangeFeed.Http.Exchange
import ChangeFeed.Settings.Output
import ChangeFeed.Sink.Message

/-!
# Web services as destinations

A message goes to a web service as one request whose body is the payload, with the key in a header.
A batch goes as one request whose body is the JSON array of the payloads, and a message that is sent
again alone as an array of one. A request that cannot be built is refused without being sent.
-/

namespace ChangeFeed.Sink.Web

/-- Sends messages to a web service. -/
structure Writer where
  address : String
  /-- How long a request may take. -/
  limit : Duration
  deriving DecidableEq, Inhabited

/-- The header with the key of a message. -/
def keyHeader : String := "X-Firehose-Key"

namespace Writer

def create (s : Settings.Web) : Except Error Writer :=
  match s.address with
  | some address => .ok ⟨address, s.timeout⟩
  | none => .error (.invalidSettings Settings.Web.missingAddress)

/-- The request with a body and a key. -/
def request (w : Writer) (key : Option String) (body : Bytes) : Http.Request :=
  ⟨.post, w.address, [],
    ("Content-Type", "application/json; charset=utf-8") :: key.toList.map (keyHeader, ·),
    body, some w.limit⟩

/-- Sends a request; nothing but a status of success is accepted. -/
def send (w : Writer) (r : Http.Request) (d : Http.Delivery) : Except Error Unit :=
  match r.exchange d with
  | .error failure =>
    if failure.isLate then .error (.timeout w.address w.limit)
    else .error (.publish w.address failure.text)
  | .ok response =>
    if Http.isSuccess response.status then .ok ()
    else .error (.publish w.address ("status " ++ Http.statusText response.status))

/-- The body of a message that is sent alone after its batch was refused. -/
def aloneBody (m : Message) : Bytes := Message.joinArray [m]

/-- The request of a call. -/
def requestFor (w : Writer) : Call → Http.Request
  | .batch messages => w.request none (Message.joinArray messages)
  | .one m => w.request m.key (aloneBody m)

def write (w : Writer) (m : Message) (d : Http.Delivery) : Except Error Unit :=
  w.send (w.request m.key m.payload) d

def writeBatch (w : Writer) (batch : List Message) (d : Http.Delivery) : Except Error Unit :=
  w.send (w.requestFor (.batch batch)) d

/-- Sends a message alone after its batch was refused. -/
def writeOne (w : Writer) (m : Message) (d : Http.Delivery) : Except Error Unit :=
  w.send (w.requestFor (.one m)) d

end Writer

end ChangeFeed.Sink.Web

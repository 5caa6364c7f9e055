import ChangeFeed.Sink.Web
import ChangeFeed.Proofs.Json.Joins
import ChangeFeed.Proofs.Sink.Flights

/-!
# Bodies of batches

A batch goes to a web service as one list. Whoever reads that list gets the documents of the messages,
and so does whoever reads the lists of one in which the messages of a refused batch follow. A message
whose key is not fit for a header is refused without being sent, so its document is in none of these.

* `Request.isOk_url`: what stands in the way of a request, and `Writer.canSend`: which messages can be
  sent alone.
* `refused_of_unsent`: what is not sent is refused, whatever becomes of requests on their way.
* `bodies_stand`: what the bodies stand for that are sent. `unsent_of_key`: not every message of a
  refused batch is sent.
-/

namespace ChangeFeed

/-! ## Requests that cannot be built -/

namespace Http.Request

/-- A request can be built if its address can be asked for and its headers have values fit for them. -/
theorem isOk_url (r : Request) :
    r.url.isOk = ({ r with headers := [] }.url.isOk && r.headers.all fun h => isHeaderValue h.2) := by
  unfold url
  cases Net.Url.parse? r.address with
  | none => rfl
  | some url =>
    cases hhost : url.hasHost with
    | false => simp [hhost, Except.isOk, Except.toBool]
    | true =>
      cases hheaders : r.headers.all fun h => isHeaderValue h.2 <;>
        cases isAskable (url.withPairs r.query) <;>
          simp [hhost, Except.isOk, Except.toBool]

theorem sent?_eq (r : Request) : r.sent? = if r.url.isOk then some r.body else none := by
  unfold sent?
  cases r.url <;> rfl

theorem url_error {r : Request} {failure : Failure} (h : r.url = .error failure) :
    failure.isLate = false := by
  unfold url at h
  split at h
  · cases h
    rfl
  · split at h
    · cases h
      rfl
    · split at h
      · cases h
        rfl
      · simp only at h
        split at h
        · cases h
        · cases h
          rfl

end Http.Request

namespace Sink.Web

open Json (Stands ofBytes?)

namespace Writer

/-- Whether the address of a writer can be asked for. -/
def isReachable (w : Writer) : Bool := (w.request none []).url.isOk

/-- Whether a message can be sent alone. -/
def canSend (w : Writer) (m : Message) : Bool := w.isReachable && m.key.all Http.isHeaderValue

theorem isOk_url_request (w : Writer) (key : Option String) (body : Bytes) :
    (w.request key body).url.isOk = (w.isReachable && key.all Http.isHeaderValue) := by
  have htype : Http.isHeaderValue "application/json; charset=utf-8" = true := by decide +kernel
  rw [isReachable, Http.Request.isOk_url, Http.Request.isOk_url (w.request none [])]
  cases key <;> simp [request, htype, Http.Request.url]

theorem sent?_requestFor_batch (w : Writer) (batch : List Message) :
    (w.requestFor (.batch batch)).sent? =
      if w.isReachable then some (Message.joinArray batch) else none := by
  rw [Http.Request.sent?_eq, requestFor, isOk_url_request, Option.all_none, Bool.and_true]
  rfl

theorem sent?_requestFor_one (w : Writer) (m : Message) :
    (w.requestFor (.one m)).sent? = if w.canSend m then some (aloneBody m) else none := by
  rw [Http.Request.sent?_eq, requestFor, isOk_url_request]
  rfl

/-- What is not sent is refused, whatever becomes of requests on their way. -/
theorem refused_of_unsent (w : Writer) {call : Call} (h : (w.requestFor call).sent? = none)
    (d : Http.Delivery) : ∃ reason, w.send (w.requestFor call) d = .error (.publish w.address reason) := by
  cases hurl : (w.requestFor call).url with
  | ok url =>
    rw [Http.Request.sent?, hurl] at h
    cases h
  | error failure =>
    have hexchange : (w.requestFor call).exchange d = .error failure := by
      rw [Http.Request.exchange, hurl]
      rfl
    exact ⟨failure.text, by simp [send, hexchange, Http.Request.url_error hurl]⟩

/-- What the calls of a sink sent. -/
def sent (w : Writer) (log : List Exchange) : List (Handled (Option Bytes)) :=
  log.map fun x => ⟨x, (w.requestFor x.call).sent?⟩

end Writer

/-! ## What is read back -/

variable {batch : List Message} {vs : List Json}

/-- The documents of the messages that can be sent alone. -/
def Writer.documents (w : Writer) (batch : List Message) (vs : List Json) : List Json :=
  ((batch.zip vs).filter fun p => w.canSend p.1).map Prod.snd

theorem ofBytes?_alone (w : Writer) (h : List.Forall₂ (fun m v => Stands 126 m.payload v) batch vs) :
    (batch.filterMap fun m => (w.requestFor (.one m)).sent?).map ofBytes? =
      (w.documents batch vs).map fun v => some (.array [v]) := by
  induction h with
  | nil => rfl
  | @cons m v ms vs hm _ ih =>
    have hone : ofBytes? (Writer.aloneBody m) = some (.array [v]) :=
      Json.ofBytes?_joinArray (List.Forall₂.cons hm List.Forall₂.nil) rfl
    rw [List.filterMap_cons, w.sent?_requestFor_one]
    cases hsend : w.canSend m with
    | false => simpa [Writer.documents, hsend] using ih
    | true => simpa [Writer.documents, hsend, hone] using ih

/-- The body of a batch stands for the list of its documents, and the bodies that follow if it is
refused stand for lists that make up the list of those documents whose messages can be sent. A call
that sends nothing is refused. -/
theorem bodies_stand (batch : List Message) (vs : List Json)
    (h : List.Forall₂ (fun m v => Stands 126 m.payload v) batch vs) :
    ofBytes? (Message.joinArray batch) = some (.array vs) ∧
    ∀ (w : Writer) (s : Settings.Output) (events : List Batched.Event),
      (∀ d, w.writeBatch batch d = w.send (w.requestFor (.batch batch)) d) ∧
      (∀ m d, w.writeOne m d = w.send (w.requestFor (.one m)) d) ∧
      (∀ call d, (w.requestFor call).sent? = none →
        ∃ reason, w.send (w.requestFor call) d = .error (.publish w.address reason)) ∧
      ∀ f ∈ flights (w.sent ((Batched.History.create s).after events).log), f.batch = batch →
        f.together.trace.map ofBytes? =
          (if w.isReachable then some (some (.array vs)) else none) ∧
        (f.together.ok = false → f.left = [] →
          ∃ parts : List (List Json),
            (f.alone.filterMap (·.trace)).map ofBytes? = parts.map (fun xs => some (.array xs)) ∧
              parts.flatten = w.documents batch vs) := by
  have hall := Json.ofBytes?_joinArray h rfl
  refine ⟨hall, fun w s events => ⟨fun _ => rfl, fun _ _ => rfl,
    fun call d hsent => w.refused_of_unsent hsent d, fun f hf hbatch => ?_⟩⟩
  let u := (Batched.History.create s).after events
  have hsound : u.Sound (max s.batchSize 1) := (Batched.History.sound_create s).after events
  have hlog : (w.sent u.log).map (·.toExchange) = u.log := by
    rw [Writer.sent, List.map_map]
    exact List.map_id _
  have hflies := (hsound.sentBy hlog).inFlight.flies hf
  -- a call leaves behind what its request sent
  have htrace : ∀ x ∈ w.sent u.log, x.trace = (w.requestFor x.call).sent? := by
    intro x hx
    obtain ⟨y, -, rfl⟩ := List.mem_map.mp hx
    rfl
  obtain ⟨htogether, halone⟩ := mem_of_mem_flights hf
  refine ⟨?_, fun hrefused hleft => ⟨(w.documents batch vs).map ([·]), ?_, ?_⟩⟩
  · rw [htrace _ htogether, hflies.call, hbatch, w.sent?_requestFor_batch]
    split
    · rw [Option.map_some, hall]
    · rfl
  · have hcalls : f.alone.map (·.call) = batch.map .one := by
      simpa [hleft, hrefused, hbatch] using hflies.alone
    have hsent : f.alone.filterMap (·.trace) =
        batch.filterMap fun m => (w.requestFor (.one m)).sent? := by
      calc f.alone.filterMap (·.trace)
          = f.alone.filterMap (fun x => (w.requestFor x.call).sent?) :=
            List.filterMap_congr fun x hx => htrace x (halone x hx)
        _ = (f.alone.map (·.call)).filterMap (fun call => (w.requestFor call).sent?) := by
            rw [List.filterMap_map]
            rfl
        _ = batch.filterMap (fun m => (w.requestFor (.one m)).sent?) := by
            rw [hcalls, List.filterMap_map]
            rfl
    rw [hsent, ofBytes?_alone w h, List.map_map]
    rfl
  · rw [← List.flatMap_def, List.flatMap_singleton']

/-- All documents of a batch are sent if all of its messages can be. -/
theorem documents_of_canSend (w : Writer)
    (h : List.Forall₂ (fun m v => Stands 126 m.payload v) batch vs)
    (hall : ∀ m ∈ batch, w.canSend m = true) : w.documents batch vs = vs := by
  have hkept : (batch.zip vs).filter (fun p => w.canSend p.1) = batch.zip vs :=
    List.filter_eq_self.mpr fun p hp => hall p.1 (List.of_mem_zip hp).1
  rw [Writer.documents, hkept, List.map_snd_zip h.length_eq.ge]

/-- A text full of the characters that lists are made of. -/
def bracketed : Message := ⟨some "a", Bytes.ofText "\x7b\"k\": \"],[\\\"\"\x7d "⟩

def bracketedDocument : Json := .object [("k", .string "],[\"")]

theorem stands_bracketed : Stands 126 bracketed.payload bracketedDocument := by
  have hread : Json.read "\x7b\"k\": \"],[\\\"\"\x7d " = .ok bracketedDocument := by rfl
  exact ⟨_, _, Bytes.text?_ofText _, hread, by decide, rfl⟩

def nested : Message := ⟨none, Bytes.ofText " [-1, [[]], null]"⟩

def nestedDocument : Json := .array [.number (.negative (-1)), .array [.array []], .null]

theorem stands_nested : Stands 126 nested.payload nestedDocument := by
  have hread : Json.read " [-1, [[]], null]" = .ok nestedDocument := by rfl
  exact ⟨_, _, Bytes.text?_ofText _, hread, by decide, rfl⟩

/-- A batch of two messages is refused, and then one of its messages. -/
def refusedBatch : List Batched.Event :=
  [.start, .produce (.put bracketed), .take 0, .produce (.put nested), .take 0, .finish false 0,
    .finish true 0, .finish false 0]

def collector : Writer := ⟨"http://[::1]:8080/events", .ofMillis 5000⟩

theorem bodies_stand_of_brackets :
    List.Forall₂ (fun m v => Stands 126 m.payload v) [bracketed, nested]
        [bracketedDocument, nestedDocument] ∧
      ofBytes? (Message.joinArray [bracketed, nested]) =
        some (.array [bracketedDocument, nestedDocument]) ∧
      ∃ f ∈ flights (collector.sent
          ((Batched.History.create Batched.paired).after refusedBatch).log),
        f.batch = [bracketed, nested] ∧ f.together.ok = false ∧ f.left = [] ∧ f.alone.length = 2 ∧
        f.together.trace.map ofBytes? =
          some (some (.array [bracketedDocument, nestedDocument])) ∧
        ∃ parts : List (List Json),
          (f.alone.filterMap (·.trace)).map ofBytes? = parts.map (fun xs => some (.array xs)) ∧
            parts.flatten = [bracketedDocument, nestedDocument] := by
  have hstands : List.Forall₂ (fun m v => Stands 126 m.payload v) [bracketed, nested]
      [bracketedDocument, nestedDocument] :=
    .cons stands_bracketed (.cons stands_nested .nil)
  have hreachable : collector.isReachable = true := by decide +kernel
  have hsend : ∀ m ∈ [bracketed, nested], collector.canSend m = true := by decide +kernel
  have hdocuments := documents_of_canSend collector hstands hsend
  obtain ⟨hall, hruns⟩ := bodies_stand [bracketed, nested] _ hstands
  obtain ⟨-, -, -, hflights⟩ := hruns collector Batched.paired refusedBatch
  obtain ⟨f, hf, hbatch, hrefused, hleft, hlength⟩ : ∃ f ∈ flights (collector.sent
      ((Batched.History.create Batched.paired).after refusedBatch).log),
      f.batch = [bracketed, nested] ∧ f.together.ok = false ∧ f.left = [] ∧ f.alone.length = 2 :=
    ⟨_, List.mem_singleton.mpr rfl, rfl, rfl, rfl, rfl⟩
  obtain ⟨htogether, halone⟩ := hflights f hf hbatch
  rw [hreachable, if_pos rfl] at htogether
  rw [hdocuments] at halone
  exact ⟨hstands, hall, f, hf, hbatch, hrefused, hleft, hlength, htogether, halone hrefused hleft⟩

/-- A message whose key is no value for a header. -/
def twoLined : Message := ⟨some "a\nb", Bytes.ofText "1"⟩

theorem stands_twoLined : Stands 126 twoLined.payload (.number (.natural 1)) := by
  have hread : Json.read "1" = .ok (.number (.natural 1)) := by rfl
  exact ⟨_, _, Bytes.text?_ofText _, hread, by decide, rfl⟩

/-- A batch of one message is refused, and then its message. -/
def refusedMessage : List Batched.Event :=
  [.start, .produce (.put twoLined), .take 0, .finish false 0, .finish false 0]

/-- Not every message of a refused batch is sent after it. -/
theorem unsent_of_key :
    ¬ ∀ (batch : List Message) (vs : List Json),
      List.Forall₂ (fun m v => Stands 126 m.payload v) batch vs →
      ∀ (w : Writer) (s : Settings.Output) (events : List Batched.Event),
      ∀ f ∈ flights (w.sent ((Batched.History.create s).after events).log), f.batch = batch →
        f.together.ok = false → f.left = [] →
          ∃ parts : List (List Json),
            (f.alone.filterMap (·.trace)).map ofBytes? = parts.map (fun xs => some (.array xs)) ∧
              parts.flatten = vs := by
  intro h
  let alone : Handled (Option Bytes) :=
    ⟨⟨.one twoLined, false⟩, (collector.requestFor (.one twoLined)).sent?⟩
  let f : Flight (Option Bytes) :=
    ⟨⟨⟨.batch [twoLined], false⟩, (collector.requestFor (.batch [twoLined])).sent?⟩, [alone]⟩
  have hf : f ∈ flights (collector.sent
      ((Batched.History.create { Settings.Output.standard with batchSize := 1 }).after
        refusedMessage).log) := List.mem_singleton.mpr rfl
  obtain ⟨parts, hparts, hflatten⟩ :=
    h [twoLined] _ (.cons stands_twoLined .nil) collector _ refusedMessage f hf rfl rfl rfl
  have hkey : Http.isHeaderValue "a\nb" = false := by decide
  have hnone : (collector.requestFor (.one twoLined)).sent? = none := by
    rw [collector.sent?_requestFor_one]
    simp [Writer.canSend, twoLined, hkey]
  have hsent : f.alone.filterMap (·.trace) = [] := by simp [f, alone, hnone]
  rw [hsent, List.map_nil, eq_comm, List.map_eq_nil_iff] at hparts
  rw [hparts] at hflatten
  cases hflatten

end Sink.Web

end ChangeFeed

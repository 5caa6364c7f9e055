import ChangeFeed.Settings.Output
import ChangeFeed.Sink.Queue

/-!
# Building sinks

Which sink the settings ask for. The programs that talk to Kafka and SQS are parts of their own that
a plain build does not have.
-/

namespace ChangeFeed.Sink

/-- The fault of a destination that this build lacks. -/
def lacking (destination : Settings.Destination) : Error :=
  .invalidSettings ("sink.kind " ++ destination.name ++ " needs a build with the `" ++
    destination.name ++ "` cargo feature")

/-- The name of the sink for the settings. -/
def build (s : Settings.Output) : Except Error String :=
  match s.destination with
  | none =>
    .error (.invalidSettings "Missing sink.kind: stdout, http, http-batch, kafka, sqs, noop")
  | some destination =>
    let queued : Except Error String :=
      (Queue.checkRoom s.queueCapacity).map fun _ => destination.name
    match destination with
    | .web | .webBatch =>
      match s.web.address with
      | some _ => queued
      | none => .error (.invalidSettings Settings.Web.missingAddress)
    | .kafka | .sqs => .error (lacking destination)
    | .lines => queued
    | .nowhere => .ok destination.name

end ChangeFeed.Sink

import ChangeFeed.Settings.Check
import ChangeFeed.Text.Blank

/-!
# Settings of sinks

Where events go and how they are queued on their way. A destination must be chosen, and only the
settings of the chosen one are checked.
-/

namespace ChangeFeed.Settings

/-- A kind of destination. -/
inductive Destination where
  /-- Lines on the standard output. -/
  | lines
  /-- A web service, one request for each message. -/
  | web
  /-- A web service, one request for each batch. -/
  | webBatch
  | kafka
  | sqs
  /-- Nowhere. -/
  | nowhere
  deriving DecidableEq, Inhabited

namespace Destination

def all : List Destination := [.lines, .web, .webBatch, .kafka, .sqs, .nowhere]

def name : Destination → String
  | .lines => "stdout"
  | .web => "http"
  | .webBatch => "http-batch"
  | .kafka => "kafka"
  | .sqs => "sqs"
  | .nowhere => "noop"

/-- The name of a destination as a constructor. -/
def label : Destination → String
  | .lines => "Stdout"
  | .web => "Http"
  | .webBatch => "HttpBatch"
  | .kafka => "Kafka"
  | .sqs => "Sqs"
  | .nowhere => "Noop"

end Destination

/-- A web service that takes messages. -/
structure Web where
  address : Option String
  timeoutMs : Nat
  deriving DecidableEq, Inhabited

namespace Web

/-- What holds when nothing is set. -/
def standard : Web where
  address := none
  timeoutMs := 10000

def form : Form Web := .record "HttpSinkConfig" standard <|
  (Fields.none Web.mk)
    |>.and "address" (.optional .text) address
    |>.and "timeout_ms" (.word 64) timeoutMs

/-- What is said when the address is missing. -/
def missingAddress : String :=
  "Missing sink.http.address (example: http://collector:8080/events)"

def check (s : Web) : Except Error Unit :=
  match s.address with
  | none => .error (.invalidSettings missingAddress)
  | some a => require (isWebAddress a) (notWebAddress "sink.http.address" a)

def timeout (s : Web) : Duration := .ofMillis s.timeoutMs

end Web

/-- A Kafka topic. -/
structure Kafka where
  brokers : Option String
  topic : Option String
  timeoutMs : Nat
  deriving DecidableEq, Inhabited

namespace Kafka

/-- What holds when nothing is set. -/
def standard : Kafka where
  brokers := none
  topic := none
  timeoutMs := 5000

def form : Form Kafka := .record "KafkaSinkConfig" standard <|
  (Fields.none Kafka.mk)
    |>.and "brokers" (.optional .text) brokers
    |>.and "topic" (.optional .text) topic
    |>.and "timeout_ms" (.word 64) timeoutMs

/-- The brokers, which stand between commas. -/
def brokerList (s : Kafka) : List String :=
  ((Text.splitOn ',' (s.brokers.getD "")).map Text.trim).filter (· ≠ "")

def check (s : Kafka) : Except Error Unit := do
  require (!s.brokerList.isEmpty)
    "Missing sink.kafka.brokers (example: kafka-1:9092,kafka-2:9092)"
  require (Text.trim (s.topic.getD "") ≠ "") "Missing sink.kafka.topic"
  require (s.timeoutMs ≠ 0) "sink.kafka.timeout_ms cannot be 0"

def timeout (s : Kafka) : Duration := .ofMillis s.timeoutMs

end Kafka

/-- An SQS queue. -/
structure Sqs where
  queueUrl : Option String
  region : Option String
  /-- The group of messages without a key. -/
  groupId : String
  deriving DecidableEq, Inhabited

namespace Sqs

/-- What holds when nothing is set. -/
def standard : Sqs where
  queueUrl := none
  region := none
  groupId := "nomad-firehose"

def form : Form Sqs := .record "SqsSinkConfig" standard <|
  (Fields.none Sqs.mk)
    |>.and "queue_url" (.optional .text) queueUrl
    |>.and "region" (.optional .text) region
    |>.and "group_id" .text groupId

/-- What is said when the queue is missing. -/
def missingQueue : String :=
  "Missing sink.sqs.queue_url (example: " ++
    "https://sqs.us-east-1.amazonaws.com/123456789012/events)"

def check (s : Sqs) : Except Error Unit :=
  match s.queueUrl with
  | none => .error (.invalidSettings missingQueue)
  | some u => do
    require (isWebAddress u) (notWebAddress "sink.sqs.queue_url" u)
    require (s.groupId ≠ "") "sink.sqs.group_id cannot be empty"

/-- Whether the queue keeps the order of messages. -/
def isFifo (s : Sqs) : Bool := (s.queueUrl.getD "").endsWith ".fifo"

end Sqs

/-- Where events go. -/
structure Output where
  destination : Option Destination
  /-- How many messages may wait for a writer. -/
  queueCapacity : Nat
  workerCount : Nat
  batchSize : Nat
  flushIntervalMs : Nat
  /-- How often stopping looks whether the queue is empty. -/
  drainPollIntervalMs : Nat
  web : Web
  kafka : Kafka
  sqs : Sqs
  deriving DecidableEq, Inhabited

namespace Output

/-- What holds when nothing is set. -/
def standard : Output where
  destination := none
  queueCapacity := 1000
  workerCount := 1
  batchSize := 10
  flushIntervalMs := 1000
  drainPollIntervalMs := 1000
  web := .standard
  kafka := .standard
  sqs := .standard

def form : Form Output := .record "SinkConfig" standard <|
  (Fields.none Output.mk)
    |>.and "kind" (.optional (.choice "SinkKind" Destination.all Destination.name)) destination
    |>.and "queue_capacity" (.word 64) queueCapacity
    |>.and "worker_count" (.word 64) workerCount
    |>.and "batch_size" (.word 64) batchSize
    |>.and "flush_interval_ms" (.word 64) flushIntervalMs
    |>.and "drain_poll_interval_ms" (.word 64) drainPollIntervalMs
    |>.and "http" Web.form web
    |>.and "kafka" Kafka.form kafka
    |>.and "sqs" Sqs.form sqs

/-- The greatest number of messages in one request to a queue. -/
def sqsGreatestBatch : Nat := 10

def check (s : Output) : Except Error Unit :=
  match s.destination with
  | none =>
    .error (.invalidSettings "Missing sink.kind: stdout, http, http-batch, kafka, sqs or noop")
  | some destination => do
    require (1 ≤ s.queueCapacity ∧ s.queueCapacity ≤ 100000)
      s!"sink.queue_capacity must be within 1..=100000, got {s.queueCapacity}"
    require (s.workerCount ≠ 0) "sink.worker_count must be at least 1"
    require (s.batchSize ≠ 0) "sink.batch_size must be at least 1"
    require (s.flushIntervalMs ≠ 0 ∧ s.drainPollIntervalMs ≠ 0)
      "sink.flush_interval_ms and sink.drain_poll_interval_ms cannot be 0"
    match destination with
    | .web | .webBatch => s.web.check
    | .kafka => s.kafka.check
    | .sqs =>
      s.sqs.check
      require (s.batchSize ≤ sqsGreatestBatch)
        s!"sink.batch_size must be at most {sqsGreatestBatch} for sqs, got {s.batchSize}"
    | .lines | .nowhere => pure ()

def flushInterval (s : Output) : Duration := .ofMillis s.flushIntervalMs

def drainPollInterval (s : Output) : Duration := .ofMillis s.drainPollIntervalMs

end Output

end ChangeFeed.Settings

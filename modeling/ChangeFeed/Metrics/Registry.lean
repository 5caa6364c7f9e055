import ChangeFeed.Decimal.Binary64

/-!
# Metrics

Counters, gauges and one histogram, each family split by the value of one label. A label value
exists from the first time it is touched on, also when nothing was added.

* `Metrics.add`, `Metrics.set` and `Metrics.observe` touch a value.
* `Metrics.text` is the text exposition: families by name, values by label, and for each observed
  size the number of observations up to each bound.
-/

namespace ChangeFeed

/-- How the values of a family behave. -/
inductive Metric.Kind where
  | counter | gauge | histogram
  deriving DecidableEq, Inhabited

/-- A family of values. -/
inductive Metric where
  | published | dropped | batchSize | listErrors | fetchErrors | writeFailures | readFailures
  | watermark | leader
  deriving DecidableEq, Inhabited

namespace Metric

def all : List Metric :=
  [.readFailures, .writeFailures, .leader, .batchSize, .dropped, .published, .fetchErrors,
    .listErrors, .watermark]

def name : Metric → String
  | .published => "sink_published_total"
  | .dropped => "sink_dropped_total"
  | .batchSize => "sink_batch_size"
  | .listErrors => "upstream_list_errors_total"
  | .fetchErrors => "upstream_fetch_errors_total"
  | .writeFailures => "checkpoint_write_failures_total"
  | .readFailures => "checkpoint_read_failures_total"
  | .watermark => "watermark"
  | .leader => "leader"

def help : Metric → String
  | .published => "Events delivered to the sink destination"
  | .dropped => "Events dropped after a failed publish"
  | .batchSize => "Number of events per flushed batch"
  | .listErrors => "Failed blocking list queries"
  | .fetchErrors => "Failed single record lookups"
  | .writeFailures => "Failed watermark writes"
  | .readFailures => "Failed checkpoint reads at the start of a term"
  | .watermark => "Highest change index processed"
  | .leader => "1 while this instance holds the watcher lock"

/-- The name of the label that tells the values of a family apart. -/
def label : Metric → String
  | .published | .dropped | .batchSize => "sink"
  | _ => "kind"

def kind : Metric → Kind
  | .watermark | .leader => .gauge
  | .batchSize => .histogram
  | _ => .counter

/-- The name of a kind of family. -/
def Kind.name : Kind → String
  | .counter => "counter"
  | .gauge => "gauge"
  | .histogram => "histogram"

def ofName? (name : String) : Option Metric := all.find? (·.name = name)

end Metric

/-- The values of all families. -/
structure Metrics where
  /-- Counters and gauges, by family and label value. -/
  values : List ((Metric × String) × Int)
  /-- The observations of the histogram by label value, the first one first. -/
  sizes : List (String × List Nat)
  deriving DecidableEq, Inhabited

namespace Metrics

def empty : Metrics := ⟨[], []⟩

/-- Changes the value of a key, which begins with the given one. -/
def touch {κ α : Type} [DecidableEq κ] (key : κ) (start : α) (f : α → α) :
    List (κ × α) → List (κ × α)
  | [] => [(key, f start)]
  | (k, a) :: rest => if k = key then (k, f a) :: rest else (k, a) :: touch key start f rest

/-- Adds to a counter, which is a word of 64 bits and starts over beyond its greatest value. -/
def add (m : Metrics) (metric : Metric) (label : String) (n : Nat) : Metrics :=
  { m with values := touch (metric, label) 0 (fun v => (v + Int.ofNat n) % UInt64.size) m.values }

def set (m : Metrics) (metric : Metric) (label : String) (value : Int) : Metrics :=
  { m with values := touch (metric, label) 0 (fun _ => value) m.values }

/-- Observes the size of a batch. -/
def observe (m : Metrics) (label : String) (size : Nat) : Metrics :=
  { m with sizes := touch label [] (· ++ [size]) m.sizes }

/-- The value of a counter or gauge. -/
def value (m : Metrics) (metric : Metric) (label : String) : Int :=
  (m.values.lookup (metric, label)).getD 0

/-- The touched values of a counter or gauge, by label. -/
def valuesOf (m : Metrics) (metric : Metric) : List (String × Int) :=
  (m.values.filterMap fun ((family, label), value) =>
    if family = metric then some (label, value) else none).mergeSort fun a b => a.1 ≤ b.1

/-- The touched values of the histogram, by label. -/
def sizesOf (m : Metrics) : List (String × List Nat) := m.sizes.mergeSort fun a b => a.1 ≤ b.1

/-- Whether a family has a value. -/
def has (m : Metrics) (metric : Metric) : Bool :=
  if metric.kind = .histogram then !m.sizes.isEmpty else m.values.any (·.1.1 = metric)

/-- The names of the families that have a value. -/
def names (m : Metrics) : List String := (Metric.all.filter m.has).map Metric.name

/-- The names of the families that have a value, each after the given word. -/
def namesUnder (m : Metrics) (word : String) : Except String (List String) :=
  if word = "" then .error "Error: empty prefix namespace"
  else .ok (m.names.map fun name => word ++ "_" ++ name)

/-! ## Text exposition -/

/-- Escapes the backslash, the line feed and, in a label value, the quote. -/
def escape (quotes : Bool) (s : String) : String :=
  String.ofList (s.toList.flatMap fun c =>
    if c = '\\' then ['\\', '\\']
    else if c = '\n' then ['\\', 'n']
    else if c = '"' && quotes then ['\\', '"']
    else [c])

def valueStyle : Decimal.Style := ⟨none, false, .away⟩

def nearest (n : Int) : Float :=
  let magnitude := Decimal.Binary64.ofScaled n.natAbs 0
  if n < 0 then -magnitude else magnitude

/-- The upper bounds of the buckets: twelve powers of two. -/
def bounds : List Nat := (List.range 12).map (Nat.pow 2)

def line (name : String) (labels : List (String × String)) (value : Float) : String :=
  let pairs := labels.map fun (k, v) => k ++ "=\"" ++ escape true v ++ "\""
  name ++ "\x7b" ++ String.intercalate "," pairs ++ "\x7d " ++ valueStyle.render value ++ "\n"

/-- The lines of one label value of the histogram. -/
def sizeLines (metric : Metric) (label : String) (sizes : List Nat) : List String :=
  let own := (metric.label, label)
  let bucket (bound : String) (count : Nat) : String :=
    line (metric.name ++ "_bucket") [own, ("le", bound)] (nearest count)
  let sum := sizes.foldl (fun sum n => sum + nearest (Int.ofNat n)) (0 : Float)
  bounds.map (fun bound => bucket (toString bound) (sizes.countP (· ≤ bound))) ++
    [bucket "+Inf" sizes.length,
      line (metric.name ++ "_sum") [own] sum,
      line (metric.name ++ "_count") [own] (nearest sizes.length)]

def familyLines (m : Metrics) (metric : Metric) : List String :=
  if m.has metric then
    ["# HELP " ++ metric.name ++ " " ++ escape false metric.help ++ "\n",
      "# TYPE " ++ metric.name ++ " " ++ metric.kind.name ++ "\n"] ++
    (if metric.kind = .histogram then
      m.sizesOf.flatMap fun (label, sizes) => sizeLines metric label sizes
    else
      (m.valuesOf metric).map fun (label, value) =>
        line metric.name [(metric.label, label)] (nearest value))
  else []

def text (m : Metrics) : String := String.join (Metric.all.flatMap m.familyLines)

/-- The answer of the web endpoint to a request for a path: the text, or nothing for an unknown
path. -/
def answer? (m : Metrics) (path : String) : Option String :=
  let path := String.ofList (path.toList.takeWhile (· ≠ '?'))
  if path = "/metrics" ∨ path = "/metrics/" then some m.text else none

end Metrics

end ChangeFeed

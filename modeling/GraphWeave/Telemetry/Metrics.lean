import GraphWeave.Events.Event
import GraphWeave.Value.Basic
import GraphWeave.Text.Quoted

/-!
Service metrics fed from events: counters and histograms by label values, and one gauge.
-/

namespace GraphWeave.Telemetry

/-- A family of counters, one for each tuple of label values used, in order of first use. -/
structure CounterVec where
  name : String
  help : String
  labels : List String
  series : List (List String × Nat) := []

namespace CounterVec

/-- Adds one to the counter of some label values. -/
def inc (c : CounterVec) (values : List String) : CounterVec :=
  if c.series.any (·.1 == values) then
    { c with series := c.series.map fun (vs, n) => if vs == values then (vs, n + 1) else (vs, n) }
  else { c with series := c.series ++ [(values, 1)] }

end CounterVec

/-- The observations of one histogram series: the count in each bucket, the count of all, and
their sum. -/
structure HistogramSeries where
  buckets : List Nat
  count : Nat
  sum : Binary64

/-- A family of histograms with shared bucket bounds. -/
structure HistogramVec where
  name : String
  help : String
  labels : List String
  bounds : List Binary64
  series : List (List String × HistogramSeries) := []

namespace HistogramVec

/-- The index of the first bound at least the value; the number of bounds when there is none. -/
def bucketOf (bounds : List Binary64) (x : Binary64) : Nat :=
  (bounds.findIdx? fun b => x.le b).getD bounds.length

/-- Adds an observation to a series. -/
def record (bounds : List Binary64) (s : HistogramSeries) (x : Binary64) : HistogramSeries :=
  let i := bucketOf bounds x
  { buckets := s.buckets.mapIdx fun j n => if j == i then n + 1 else n
    count := s.count + 1
    sum := s.sum.add x }

/-- Observes a value in the series of some label values. -/
def observe (h : HistogramVec) (values : List String) (x : Binary64) : HistogramVec :=
  let empty : HistogramSeries := ⟨h.bounds.map fun _ => 0, 0, .zero⟩
  if h.series.any (·.1 == values) then
    { h with series := h.series.map fun (vs, s) =>
        if vs == values then (vs, record h.bounds s x) else (vs, s) }
  else { h with series := h.series ++ [(values, record h.bounds empty x)] }

end HistogramVec

/-- A decimal constant as a double. -/
def decimal (digits : Nat) (exponent : Int) : Binary64 := BinaryFloat.ofDecimal false digits exponent

/-- The default bucket bounds for request durations, in seconds. -/
def defaultBuckets : List Binary64 :=
  [decimal 5 (-3), decimal 1 (-2), decimal 25 (-3), decimal 5 (-2), decimal 1 (-1),
   decimal 25 (-2), decimal 5 (-1), decimal 1 0, decimal 25 (-1), decimal 5 0, decimal 1 1]

/-- The bucket bounds for resolver durations, in seconds. -/
def resolverBuckets : List Binary64 :=
  [decimal 1 (-4), decimal 5 (-4), decimal 1 (-3), decimal 5 (-3), decimal 1 (-2),
   decimal 5 (-2), decimal 1 (-1), decimal 5 (-1), decimal 1 0]

/-- The service's metrics. -/
structure Metrics where
  httpRequests : CounterVec :=
    ⟨"gqlcompose_http_requests_total", "Total number of HTTP requests by method and status",
      ["method", "status"], []⟩
  httpDuration : HistogramVec :=
    ⟨"gqlcompose_http_request_duration_seconds", "HTTP request duration in seconds by method",
      ["method"], defaultBuckets, []⟩
  operations : CounterVec :=
    ⟨"gqlcompose_operations_total", "Total number of GraphQL operations by type and outcome",
      ["operation_type", "outcome"], []⟩
  operationDuration : HistogramVec :=
    ⟨"gqlcompose_operation_duration_seconds", "GraphQL operation duration in seconds by type",
      ["operation_type"], defaultBuckets, []⟩
  resolverErrors : CounterVec :=
    ⟨"gqlcompose_resolver_errors_total", "Total number of resolver errors by field", ["field"], []⟩
  resolverDuration : HistogramVec :=
    ⟨"gqlcompose_resolver_duration_seconds", "Resolver duration in seconds by field and mode",
      ["field", "mode"], resolverBuckets, []⟩
  schemaAssembleSeconds : Binary64 := .zero

/-- The name and help text of the gauge. -/
def gaugeName : String := "gqlcompose_schema_assemble_seconds"

/-- The help text of the gauge. -/
def gaugeHelp : String := "Time spent assembling the schema at startup"

/-- The kinds of events the metrics consume. -/
def Metrics.kinds : List EventKind :=
  [.httpFinish, .graphqlFinish, .resolverFinish, .schemaAssembled]

/-- Updates the metrics with an event. -/
def Metrics.record (m : Metrics) : Event → Metrics
  | .httpFinish request status duration =>
    { m with
      httpRequests := m.httpRequests.inc [request.method, toString status]
      httpDuration := m.httpDuration.observe [request.method] duration.seconds }
  | .graphqlFinish _ _ operationType errors duration =>
    let opType := if operationType.isEmpty then "unknown" else operationType
    let outcome := if errors.isEmpty then "ok" else "error"
    { m with
      operations := m.operations.inc [opType, outcome]
      operationDuration := m.operationDuration.observe [opType] duration.seconds }
  | .resolverFinish objectType field async error duration =>
    let name := objectType ++ "." ++ field
    let m := { m with
      resolverDuration := m.resolverDuration.observe [name, if async then "async" else "sync"]
        duration.seconds }
    if error.isSome then { m with resolverErrors := m.resolverErrors.inc [name] } else m
  | .schemaAssembled _ _ duration => { m with schemaAssembleSeconds := duration.seconds }
  | _ => m

/-- A sample: a metric name, its labels sorted by name, and its value. -/
structure Sample where
  name : String
  labels : List (String × String)
  value : String

/-- The text of a number in samples. -/
def number (x : Binary64) : String := x.render Value.floatStyle

/-- Labels with their values, sorted by name. -/
def labelled (names values : List String) : List (String × String) :=
  (names.zip values).mergeSort fun a b => decide (a.1 ≤ b.1)

/-- The samples of a counter family. -/
def CounterVec.samples (c : CounterVec) : List Sample :=
  c.series.map fun (vs, n) => ⟨c.name, labelled c.labels vs, toString n⟩

/-- The count samples of a histogram family. -/
def HistogramVec.countSamples (h : HistogramVec) : List Sample :=
  h.series.map fun (vs, s) => ⟨h.name ++ "_count", labelled h.labels vs, toString s.count⟩

/-- The sum samples of a histogram family. -/
def HistogramVec.sumSamples (h : HistogramVec) : List Sample :=
  h.series.map fun (vs, s) => ⟨h.name ++ "_sum", labelled h.labels vs, number s.sum⟩

/-- The cumulative counts of a series at each finite bound. -/
def HistogramSeries.cumulative (bounds : List Binary64) (s : HistogramSeries) :
    List (Binary64 × Nat) :=
  (bounds.zip s.buckets).foldl (fun (acc, total) (b, n) => (acc ++ [(b, total + n)], total + n))
    ([], 0) |>.1

/-- The text of a label set: `{k="v",...}`, nothing when empty. -/
def labelText (labels : List (String × String)) : String :=
  if labels.isEmpty then ""
  else "\x7b" ++ ",".intercalate (labels.map fun (k, v) => k ++ "=" ++ Quoted.encode v) ++ "\x7d"

/-- The line of a sample: `name{labels} value`. -/
def Sample.line (s : Sample) : String := s.name ++ labelText s.labels ++ " " ++ s.value

/-- Sorts lines by their bytes. -/
def sortLines (lines : List String) : List String := lines.mergeSort fun a b => decide (a ≤ b)

namespace Metrics

/-- The counter families. -/
def counters (m : Metrics) : List CounterVec := [m.httpRequests, m.operations, m.resolverErrors]

/-- The histogram families. -/
def histograms (m : Metrics) : List HistogramVec :=
  [m.httpDuration, m.operationDuration, m.resolverDuration]

/-- Every sample as a line, sorted: counters, the gauge, and each histogram's count, sum and
cumulative buckets, a bucket written `name_bucket{labels} le=<bound> <count>`. -/
def allLines (m : Metrics) : List String :=
  let counters := (m.counters.flatMap CounterVec.samples).map Sample.line
  let gauge := gaugeName ++ " " ++ number m.schemaAssembleSeconds
  let histograms := m.histograms.flatMap fun h =>
    (h.countSamples ++ h.sumSamples).map Sample.line ++
      h.series.flatMap fun (vs, s) =>
        (s.cumulative h.bounds).map fun (b, n) =>
          h.name ++ "_bucket" ++ labelText (labelled h.labels vs) ++ " le=" ++ number b ++ " " ++
            toString n
  sortLines (counters ++ [gauge] ++ histograms)

/-- Counters and histogram counts as lines, sorted. -/
def countLines (m : Metrics) : List String :=
  sortLines (((m.counters.flatMap CounterVec.samples) ++
    (m.histograms.flatMap HistogramVec.countSamples)).map Sample.line)

end Metrics

end GraphWeave.Telemetry

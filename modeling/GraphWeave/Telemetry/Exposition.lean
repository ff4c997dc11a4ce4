import GraphWeave.Telemetry.Metrics

/-!
The text exposition of the metrics, as a scraper reads it.
-/

namespace GraphWeave.Telemetry

/-- The content type of the exposition. -/
def expositionContentType : String := "text/plain; version=0.0.4; charset=utf-8; escaping=underscores"

/-- Escapes backslash, newline and, for label values, double quote. -/
def escapeText (quote : Bool) (s : String) : String :=
  String.join (s.toList.map fun c =>
    if c == '\\' then "\\\\"
    else if c == '\n' then "\\n"
    else if quote && c == '"' then "\\\""
    else String.singleton c)

/-- The text of a label set in the exposition. -/
def expositionLabels (labels : List (String × String)) : String :=
  if labels.isEmpty then ""
  else "\x7b" ++ ",".intercalate (labels.map fun (k, v) => k ++ "=\"" ++ escapeText true v ++ "\"") ++
    "\x7d"

/-- The help and type lines of a family. -/
def header (name help kind : String) : List String :=
  ["# HELP " ++ name ++ " " ++ escapeText false help, "# TYPE " ++ name ++ " " ++ kind]

/-- Orders series by their label values, compared label by label. -/
def sortSeries {α : Type} (series : List (List (String × String) × α)) :
    List (List (String × String) × α) :=
  series.mergeSort fun a b => !List.lex (b.1.map (·.2)) (a.1.map (·.2)) fun x y => decide (x < y)

/-- The lines of a counter family. -/
def CounterVec.exposition (c : CounterVec) : List String :=
  if c.series.isEmpty then []
  else
    let series := sortSeries (c.series.map fun (vs, n) => (labelled c.labels vs, n))
    header c.name c.help "counter" ++
      series.map fun (ls, n) => c.name ++ expositionLabels ls ++ " " ++ toString n

/-- The lines of a histogram family. -/
def HistogramVec.exposition (h : HistogramVec) : List String :=
  if h.series.isEmpty then []
  else
    let series := sortSeries (h.series.map fun (vs, s) => (labelled h.labels vs, s))
    header h.name h.help "histogram" ++ series.flatMap fun (ls, s) =>
      (s.cumulative h.bounds).map (fun (b, n) =>
        h.name ++ "_bucket" ++ expositionLabels (ls ++ [("le", number b)]) ++ " " ++ toString n) ++
      [h.name ++ "_bucket" ++ expositionLabels (ls ++ [("le", "+Inf")]) ++ " " ++ toString s.count,
       h.name ++ "_sum" ++ expositionLabels ls ++ " " ++ number s.sum,
       h.name ++ "_count" ++ expositionLabels ls ++ " " ++ toString s.count]

/-- The exposition text of the metrics. -/
def Metrics.exposition (m : Metrics) : String :=
  let families : List (String × List String) :=
    (m.counters.map fun c => (c.name, c.exposition)) ++
    (m.histograms.map fun h => (h.name, h.exposition)) ++
    [(gaugeName, header gaugeName gaugeHelp "gauge" ++ [gaugeName ++ " " ++ number m.schemaAssembleSeconds])]
  let sorted := families.mergeSort fun a b => decide (a.1 ≤ b.1)
  String.join ((sorted.flatMap (·.2)).map (· ++ "\n"))

end GraphWeave.Telemetry

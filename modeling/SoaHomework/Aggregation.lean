import Mathlib.Data.List.AList
import SoaHomework.Interleaving
import SoaHomework.MetricTables

/-!
# The aggregation service

`app/aggregation.py`, `app/repository.py`, `app/exporter.py`, `app/scheduler.py`
and the handlers of `app/main.py`, one command at a time. ClickHouse and
PostgreSQL execute a command entirely or not at all, and an error may be
reported for either. The clock counts microseconds.
-/

namespace SoaHomework.MovieAnalytics

open StatementProgram

/-! ## Metrics -/

inductive MetricName where
  | dau
  | avgWatchSeconds
  | viewStarted
  | viewFinished
  | conversionRate
  | retentionD1
  | retentionD7
  | topMovieViews
  | deviceEvents
deriving DecidableEq, Repr

def MetricName.text : MetricName → String
  | .dau => "DAU"
  | .avgWatchSeconds => "AVG_WATCH_SECONDS"
  | .viewStarted => "VIEW_STARTED"
  | .viewFinished => "VIEW_FINISHED"
  | .conversionRate => "CONVERSION_RATE"
  | .retentionD1 => "RETENTION_D1"
  | .retentionD7 => "RETENTION_D7"
  | .topMovieViews => "TOP_MOVIE_VIEWS"
  | .deviceEvents => "DEVICE_EVENTS"

structure Metadata where
  rank : Option Nat
  computedAt : Nat
deriving DecidableEq, Repr

/-- An entry of the payload. Absent dimensions are stored as empty texts. -/
structure Metric where
  metricName : MetricName
  dimensionKey : String
  dimensionValue : String
  metricValue : ℚ
  metadata : Metadata
deriving DecidableEq, Repr

/-- The primary key of `daily_metrics`. -/
structure MetricKey where
  metricDate : Date
  metricName : MetricName
  dimensionKey : String
  dimensionValue : String
deriving DecidableEq, Repr

structure StoredMetric where
  metricValue : ℚ
  computedAt : Nat
  metadata : Metadata
deriving DecidableEq, Repr

abbrev DailyMetrics := AList fun _ : MetricKey => StoredMetric

def Metric.key (date : Date) (metric : Metric) : MetricKey :=
  ⟨date, metric.metricName, metric.dimensionKey, metric.dimensionValue⟩

/-- The transaction of `upsert_metrics`. -/
def upsertRows (date : Date) (now : Nat) (payload : List Metric) (stored : DailyMetrics) :
    DailyMetrics :=
  payload.foldl (fun rows metric =>
    rows.insert (metric.key date) ⟨metric.metricValue, now, metric.metadata⟩) stored

/-! ## The export -/

/-- A line of `aggregates.csv`. -/
structure ExportRow where
  metricDate : Date
  metricName : String
  dimensionKey : String
  dimensionValue : String
  metricValue : ℚ
  computedAt : Option Nat
  metadata : Option Metadata
deriving DecidableEq, Repr

def exportRow (key : MetricKey) (stored : StoredMetric) : ExportRow :=
  ⟨key.metricDate, key.metricName.text, key.dimensionKey, key.dimensionValue,
    stored.metricValue, some stored.computedAt, some stored.metadata⟩

/-- `ORDER BY metric_name, dimension_key, dimension_value`, by code points -/
def ExportRow.le (a b : ExportRow) : Prop :=
  a.metricName < b.metricName ∨ a.metricName = b.metricName ∧
    (a.dimensionKey < b.dimensionKey ∨ a.dimensionKey = b.dimensionKey ∧
      a.dimensionValue ≤ b.dimensionValue)

instance : DecidableRel ExportRow.le := fun a b => by
  unfold ExportRow.le
  infer_instance

/-- `fetch_metrics_for_export` -/
def fetchMetricsForExport (stored : DailyMetrics) (date : Date) : List ExportRow :=
  (stored.entries.filterMap fun entry =>
    if entry.1.metricDate = date then some (exportRow entry.1 entry.2) else none).insertionSort
      ExportRow.le

/-- The frame of `export_for_date`. -/
def exportFrame (date : Date) (rows : List ExportRow) : List ExportRow :=
  if rows = [] then [⟨date, "NO_DATA", "", "", 0, none, none⟩] else rows

/-! ## Commands -/

inductive Command where
  | now
  | countRawRows (date : Date)
  | deleteFrom (table : MetricTable) (date : Date)
  | insertInto (table : MetricTable) (date : Date) (computedAt : Nat)
  | selectFinal (table : MetricTable) (date : Date)
  | upsert (date : Date) (payload : List Metric)
  | fetch (date : Date)
  | putObject (date : Date) (rows : List ExportRow)

@[reducible] def Result : Command → Type
  | .now => Nat
  | .countRawRows _ => Nat
  | .deleteFrom _ _ => Unit
  | .insertInto _ _ _ => Unit
  | .selectFinal table _ => List (Row table)
  | .upsert _ _ => Unit
  | .fetch _ => List ExportRow
  | .putObject _ _ => Unit

/-- The exception of a command. -/
inductive Failure where
  | raised
deriving DecidableEq, Repr

@[reducible] def Reply (c : Command) : Type := Except Failure (Result c)

abbrev Job := Program Command Reply Failure

def command (c : Command) : Job (Result c) :=
  .step c fun
    | .ok value => .ret value
    | .error failure => .fail failure

/-! ## Aggregation -/

/-- The body shared by the seven `_rewrite` methods. -/
def rewrite (table : MetricTable) (targetDate : Date) (computedAt : Nat) : Job Unit := do
  command (.deleteFrom table targetDate)
  command (.insertInto table targetDate computedAt)

def rewriteDailyDau := rewrite .dailyDau
def rewriteAvgWatchTime := rewrite .dailyAvgWatchTime
def rewriteTopMovies := rewrite .dailyTopMovies
def rewriteConversion := rewrite .dailyConversion
def rewriteRetention := rewrite .dailyRetention
def rewriteDeviceDistribution := rewrite .deviceDistribution
def rewriteRetentionCohorts := rewrite .retentionCohorts

/-- A metric of the whole date. -/
def plainMetric (computedAt : Nat) (name : MetricName) (value : ℚ) : Metric :=
  ⟨name, "", "", value, ⟨none, computedAt⟩⟩

def dauMetrics (computedAt : Nat) : List DailyDau → List Metric
  | row :: _ => [plainMetric computedAt .dau row.dau]
  | [] => []

def avgWatchMetrics (computedAt : Nat) : List DailyAvgWatchTime → List Metric
  | row :: _ => [plainMetric computedAt .avgWatchSeconds row.avgWatchSeconds]
  | [] => []

def conversionMetrics (computedAt : Nat) : List DailyConversion → List Metric
  | row :: _ =>
      [plainMetric computedAt .viewStarted row.started,
        plainMetric computedAt .viewFinished row.finished,
        plainMetric computedAt .conversionRate row.conversionRate]
  | [] => []

def retentionMetrics (computedAt : Nat) : List DailyRetention → List Metric
  | row :: _ =>
      [plainMetric computedAt .retentionD1 row.retentionD1,
        plainMetric computedAt .retentionD7 row.retentionD7]
  | [] => []

def topMovieMetric (computedAt : Nat) (row : DailyTopMovie) : Metric :=
  ⟨.topMovieViews, "movie_id", row.movieId, row.views, ⟨some row.rank, computedAt⟩⟩

def deviceMetric (computedAt : Nat) (row : DeviceEvents) : Metric :=
  ⟨.deviceEvents, "device_type", row.deviceType.value, row.events, ⟨none, computedAt⟩⟩

def buildMetricPayload (targetDate : Date) (computedAt : Nat) : Job (List Metric) := do
  let dau ← command (.selectFinal .dailyDau targetDate)
  let avgWatch ← command (.selectFinal .dailyAvgWatchTime targetDate)
  let conversion ← command (.selectFinal .dailyConversion targetDate)
  let retention ← command (.selectFinal .dailyRetention targetDate)
  let topMovies ← command (.selectFinal .dailyTopMovies targetDate)
  let devices ← command (.selectFinal .deviceDistribution targetDate)
  return dauMetrics computedAt dau ++ avgWatchMetrics computedAt avgWatch ++
    conversionMetrics computedAt conversion ++ retentionMetrics computedAt retention ++
    topMovies.map (topMovieMetric computedAt) ++ devices.map (deviceMetric computedAt)

/-- `stop_after_attempt(5)`: an attempt and four more. -/
def retries : Nat := 4

def upsertMetrics (metricDate : Date) (rows : List Metric) : Job Unit :=
  Program.retry (if rows = [] then .ret () else command (.upsert metricDate rows)) retries

structure AggregationResult where
  metricDate : Date
  processedRows : Nat
  metricsWritten : Nat
deriving DecidableEq, Repr

def aggregateForDate (targetDate : Date) : Job AggregationResult := do
  let processedRows ← command (.countRawRows targetDate)
  let now ← command .now
  let computedAt := now / 1000000
  rewriteDailyDau targetDate computedAt
  rewriteAvgWatchTime targetDate computedAt
  rewriteTopMovies targetDate computedAt
  rewriteConversion targetDate computedAt
  rewriteRetention targetDate computedAt
  rewriteDeviceDistribution targetDate computedAt
  rewriteRetentionCohorts targetDate computedAt
  let metrics ← buildMetricPayload targetDate computedAt
  upsertMetrics targetDate metrics
  return ⟨targetDate, processedRows, metrics.length⟩

def exportForDate (targetDate : Date) : Job Date :=
  Program.retry (do
    let rows ← command (.fetch targetDate)
    command (.putObject targetDate (exportFrame targetDate rows))
    return targetDate) retries

/-! ## Requests -/

/-- `POST /aggregate` and `POST /export`, perhaps with a target date, and the two
    jobs of the scheduler. -/
inductive Request where
  | aggregate (targetDate : Option Date)
  | export (targetDate : Option Date)
  | aggregateLatest
  | exportLatest
deriving DecidableEq, Repr

inductive Response where
  | aggregated (result : AggregationResult)
  | exported (date : Date)
deriving DecidableEq, Repr

/-- The day of a clock reading. -/
def day (clock : Nat) : Date := clock / 86400000000

/-- `(datetime.now(timezone.utc) - timedelta(days=1)).date()` -/
def yesterday : Job Date := do
  let now ← command .now
  return day now - 1

def targetOf : Option Date → Job Date
  | some date => return date
  | none => yesterday

def handle : Request → Job Response
  | .aggregate targetDate => do
      return .aggregated (← aggregateForDate (← targetOf targetDate))
  | .aggregateLatest => do
      return .aggregated (← aggregateForDate (← yesterday))
  | .export targetDate => do
      return .exported (← exportForDate (← targetOf targetDate))
  | .exportLatest => do
      return .exported (← exportForDate (← yesterday))

def Request.isAggregation : Request → Bool
  | .aggregate _ | .aggregateLatest => true
  | .export _ | .exportLatest => false

/-! ## Execution -/

/-- What an aggregation found in `daily_metrics` when it began, and what it has
    handed to PostgreSQL. -/
structure Call where
  found : DailyMetrics
  payload : List Metric

/-- Where the rows of a table for a date come from: from before the first
    command, or from the events and the time of the last `INSERT`, if no `DELETE`
    came after it. -/
inductive Source where
  | unknown
  | deleted
  | selected (log : EventLog) (computedAt : Nat)

/-- The databases, the bucket and the clock. The last three fields are a record
    that no command reads: the sources of the rows, the aggregations, and the last
    of them to begin for a date. -/
structure Analytics where
  clock : Nat
  movieEvents : EventLog
  tables : (table : MetricTable) → List (Row table)
  dailyMetrics : DailyMetrics
  bucket : Date → Option (List ExportRow)
  source : MetricTable → Date → Source
  calls : Nat → Option Call
  latest : Date → Option Nat

/-- What becomes of a command: it is executed, it is not and raises, or it is
    and raises nevertheless. -/
inductive Fate where
  | done
  | failed
  | lost
deriving DecidableEq, Repr

/-- The rows of `table FINAL` for a date in the order of the query. -/
def orderRows : (table : MetricTable) → List (Row table) → List (Row table)
  | .dailyTopMovies, rows => rows.insertionSort fun a b => a.rank ≤ b.rank
  | .deviceDistribution, rows =>
      rows.insertionSort fun a b => a.deviceType.value ≤ b.deviceType.value
  | _, rows => rows

def Analytics.rows (s : Analytics) (table : MetricTable) (date : Date) : List (Row table) :=
  (s.tables table).filter fun row => decide (table.date row = date)

/-- `SELECT ... FROM table FINAL WHERE metric_date = ...` -/
def Analytics.readFinal (s : Analytics) (table : MetricTable) (date : Date) : List (Row table) :=
  orderRows table ((ReplacingTable.final table.sameKey table.version (s.tables table)).filter
    fun row => decide (table.date row = date))

def Analytics.setSource (s : Analytics) (table : MetricTable) (date : Date) (source : Source) :
    MetricTable → Date → Source :=
  Function.update s.source table (Function.update (s.source table) date source)

def Analytics.deleted (s : Analytics) (table : MetricTable) (date : Date) : Analytics :=
  { s with
    tables := Function.update s.tables table
      ((s.tables table).filter fun row => decide (table.date row ≠ date))
    source := s.setSource table date .deleted }

def Analytics.inserted (s : Analytics) (table : MetricTable) (date : Date) (computedAt : Nat) :
    Analytics :=
  { s with
    tables := Function.update s.tables table
      (s.tables table ++ select table s.movieEvents date computedAt)
    source := s.setSource table date (.selected s.movieEvents computedAt) }

def Analytics.upserted (s : Analytics) (i : Nat) (date : Date) (payload : List Metric) :
    Analytics :=
  { s with
    dailyMetrics := upsertRows date s.clock payload s.dailyMetrics
    calls := Function.update s.calls i ((s.calls i).map fun call =>
      { call with payload := payload }) }

def Analytics.began (s : Analytics) (i : Nat) (date : Date) : Analytics :=
  { s with
    calls := Function.update s.calls i (some ⟨s.dailyMetrics, []⟩)
    latest := Function.update s.latest date (some i) }

def Analytics.exported (s : Analytics) (date : Date) (rows : List ExportRow) : Analytics :=
  { s with bucket := Function.update s.bucket date (some rows) }

/-- A command that has the effect `after`, if it is executed. -/
def settle {α : Type} (fate : Fate) (value : α) (before after : Analytics) :
    Except Failure α × Analytics :=
  match fate with
  | .done => (.ok value, after)
  | .failed => (.error .raised, before)
  | .lost => (.error .raised, after)

def exec (i : Nat) (c : Command) (fate : Fate) (s : Analytics) : Option (Reply c × Analytics) :=
  match c with
  | .now => some (.ok s.clock, s)
  | .countRawRows date =>
      some (settle fate (onDate s.movieEvents date).length (s.began i date) (s.began i date))
  | .deleteFrom table date => some (settle fate () s (s.deleted table date))
  | .insertInto table date computedAt =>
      some (settle fate () s (s.inserted table date computedAt))
  | .selectFinal table date => some (settle fate (s.readFinal table date) s s)
  | .upsert date payload => some (settle fate () s (s.upserted i date payload))
  | .fetch date => some (settle fate (fetchMetricsForExport s.dailyMetrics date) s s)
  | .putObject date rows => some (settle fate () s (s.exported date rows))

/-- What happens outside the service: events arrive and time passes. -/
inductive Change where
  | arrive (event : MovieEvent)
  | tick (microseconds : Nat)
deriving DecidableEq, Repr

def Analytics.after (s : Analytics) : Change → Analytics
  | .arrive event => { s with movieEvents := movieEventsMv event :: s.movieEvents }
  | .tick microseconds => { s with clock := s.clock + microseconds }

def service : Service Command Reply Failure Response Request Fate Change Analytics where
  handler := handle
  exec := exec
  close _ s := s
  outside change s := some (s.after change)

abbrev AnalyticsPool := Pool Command Reply Failure Response Request Analytics

abbrev AnalyticsEvent := Event Request Fate Change

/-- The stores before the first aggregation. -/
def Analytics.initial (clock : Nat) (log : EventLog)
    (tables : (table : MetricTable) → List (Row table)) : Analytics where
  clock := clock
  movieEvents := log
  tables := tables
  dailyMetrics := ∅
  bucket _ := none
  source _ _ := .unknown
  calls _ := none
  latest _ := none

end SoaHomework.MovieAnalytics

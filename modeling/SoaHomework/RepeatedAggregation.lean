import SoaHomework.AggregatedTables

/-!
# Repeated aggregations

An aggregation replaces the rows of its date and no other. Without new events a
second aggregation of a date computes the same rows, and aggregations of two
dates may change places. Only the times of computation differ.
-/

namespace SoaHomework.MovieAnalytics

open StatementProgram SqlAggregates

/-! ## Results without their times -/

/-- A row without its `computed_at`. -/
def untimed : (table : MetricTable) → Row table → Row table
  | .dailyDau, row => { row with computedAt := 0 }
  | .dailyAvgWatchTime, row => { row with computedAt := 0 }
  | .dailyTopMovies, row => { row with computedAt := 0 }
  | .dailyConversion, row => { row with computedAt := 0 }
  | .dailyRetention, row => { row with computedAt := 0 }
  | .deviceDistribution, row => { row with computedAt := 0 }
  | .retentionCohorts, row => { row with computedAt := 0 }

def Metric.untimed (metric : Metric) : Metric :=
  { metric with metadata := { metric.metadata with computedAt := 0 } }

def StoredMetric.untimed (stored : StoredMetric) : StoredMetric where
  metricValue := stored.metricValue
  computedAt := 0
  metadata := { stored.metadata with computedAt := 0 }

/-- The metric tables, read with `FINAL`, and `daily_metrics` hold the same. -/
structure SameResults (s s' : Analytics) : Prop where
  tables : ∀ table date,
    (s.readFinal table date).map (untimed table) = (s'.readFinal table date).map (untimed table)
  metrics : ∀ key, (s.dailyMetrics.lookup key).map StoredMetric.untimed =
    (s'.dailyMetrics.lookup key).map StoredMetric.untimed

section Untimed

variable (table : MetricTable) (log : EventLog) (date : Date) (computedAt : Nat)

theorem orderRows_untimed (rows : List (Row table)) :
    (orderRows table rows).map (untimed table) =
      orderRows table (rows.map (untimed table)) := by
  cases table with
  | dailyTopMovies => exact List.map_insertionSort _ _ _ _ fun _ _ _ _ => Iff.rfl
  | deviceDistribution => exact List.map_insertionSort _ _ _ _ fun _ _ _ _ => Iff.rfl
  | dailyDau => rfl
  | dailyAvgWatchTime => rfl
  | dailyConversion => rfl
  | dailyRetention => rfl
  | retentionCohorts => rfl

/-- What a query computes does not depend on when. -/
theorem select_untimed :
    (select table log date computedAt).map (untimed table) = select table log date 0 := by
  cases table with
  | dailyDau => simp only [select, selectDau, List.map_cons, List.map_nil, untimed]
  | dailyAvgWatchTime =>
      simp only [select, selectAvgWatchTime, List.map_cons, List.map_nil, untimed]
  | dailyConversion =>
      simp only [select, selectConversion, List.map_cons, List.map_nil, untimed]
  | dailyRetention => simp only [select, selectRetention, List.map_cons, List.map_nil, untimed]
  | dailyTopMovies =>
      simp only [select, selectTopMovies, List.map_map, Function.comp_def, untimed]
  | deviceDistribution =>
      simp only [select, selectDeviceDistribution, List.map_map, Function.comp_def, untimed]
  | retentionCohorts =>
      have hsort : ∀ rows : List RetentionCohort,
          (rows.insertionSort fun a b => a.lifecycleDay ≤ b.lifecycleDay).map
            (untimed .retentionCohorts) =
          (rows.map (untimed .retentionCohorts)).insertionSort
            fun a b => a.lifecycleDay ≤ b.lifecycleDay :=
        fun rows => List.map_insertionSort _ _ _ rows fun _ _ _ _ => Iff.rfl
      simp only [select, selectRetentionCohorts, hsort, List.map_map, Function.comp_def, untimed]

theorem selectedRows_untimed (logs : MetricTable → EventLog) :
    (selectedRows date computedAt logs table).map (untimed table) =
      selectedRows date 0 logs table := by
  rw [selectedRows, orderRows_untimed, select_untimed, selectedRows]

theorem plainMetrics_untimed (logs : MetricTable → EventLog) :
    (plainMetrics date computedAt logs).map Metric.untimed = plainMetrics date 0 logs := by
  simp only [plainMetrics, selectedRows, orderRows, select, selectDau, selectAvgWatchTime,
    selectConversion, selectRetention, dauMetrics, avgWatchMetrics, conversionMetrics,
    retentionMetrics, plainMetric, List.map_append, List.map_cons, List.map_nil, Metric.untimed]

theorem payload_untimed (logs : MetricTable → EventLog) :
    (payloadOf computedAt (selectedRows date computedAt logs)).map Metric.untimed =
      payloadOf 0 (selectedRows date 0 logs) := by
  rw [payloadOf_selected, payloadOf_selected, List.map_append, List.map_append,
    plainMetrics_untimed, ← selectedRows_untimed .dailyTopMovies date computedAt,
    ← selectedRows_untimed .deviceDistribution date computedAt]
  simp only [List.map_map, Function.comp_def, topMovieMetric, deviceMetric, Metric.untimed,
    untimed]

end Untimed

section Upsert

variable {date : Date} {now now' : Nat} {payload payload' : List Metric}
  {stored stored' : DailyMetrics}

theorem Metric.key_of_untimed {metric metric' : Metric} (h : metric.untimed = metric'.untimed)
    (date : Date) : metric.key date = metric'.key date := by
  have hkey : metric.untimed.key date = metric'.untimed.key date := by rw [h]
  exact hkey

theorem Metric.stored_of_untimed {metric metric' : Metric}
    (h : metric.untimed = metric'.untimed) :
    (⟨metric.metricValue, now, metric.metadata⟩ : StoredMetric).untimed =
      (⟨metric'.metricValue, now', metric'.metadata⟩ : StoredMetric).untimed := by
  have hstored : (⟨metric.untimed.metricValue, 0, metric.untimed.metadata⟩ : StoredMetric) =
      ⟨metric'.untimed.metricValue, 0, metric'.untimed.metadata⟩ := by
    rw [h]
  exact hstored

/-- Two payloads that differ in their times store the same under a key that they
    have, and under one where the same was stored before. -/
theorem upsertRows_untimed (hpayload : payload.map Metric.untimed = payload'.map Metric.untimed)
    {key : MetricKey}
    (hstored : (∀ metric ∈ payload, metric.key date ≠ key) →
      (stored.lookup key).map StoredMetric.untimed =
        (stored'.lookup key).map StoredMetric.untimed) :
    ((upsertRows date now payload stored).lookup key).map StoredMetric.untimed =
      ((upsertRows date now' payload' stored').lookup key).map StoredMetric.untimed := by
  induction payload generalizing payload' stored stored' with
  | nil =>
      have hnil : payload' = [] := List.map_eq_nil_iff.mp hpayload.symm
      subst hnil
      apply hstored
      intro metric hmetric
      cases hmetric
  | cons metric payload ih =>
      cases payload' with
      | nil => cases hpayload
      | cons metric' payload' =>
          obtain ⟨hfirst, hrest⟩ := List.cons.inj hpayload
          have hkey := Metric.key_of_untimed hfirst date
          apply ih hrest
          intro hnone
          by_cases hself : metric.key date = key
          · subst hself
            rw [AList.lookup_insert, hkey, AList.lookup_insert]
            exact congrArg some (Metric.stored_of_untimed hfirst)
          · rw [AList.lookup_insert_ne (Ne.symm hself),
              AList.lookup_insert_ne (Ne.symm (hkey ▸ hself))]
            apply hstored
            exact List.forall_mem_cons.mpr ⟨hself, hnone⟩

end Upsert

/-! ## Two aggregations -/

section Twice

variable {date other : Date} {started stored started' stored' : Nat} {s s₁ s₂ : Analytics}

/-- The rows that an aggregation has written depend on the events alone. -/
theorem AggregatedAt.readFinal (h : AggregatedAt date started stored s s₁) (table : MetricTable) :
    (s₁.readFinal table date).map (untimed table) =
      selectedRows date 0 (fun _ => s.movieEvents) table := by
  rw [readFinal_of_rows (h.rows table)]
  exact selectedRows_untimed table date (started / 1000000) fun _ => s.movieEvents

/-- The same metrics are stored under the keys of a date that hold the same, or
    are all replaced. -/
theorem AggregatedAt.metrics_untimed {t t₁ : Analytics}
    (h : AggregatedAt date started stored s s₁) (h' : AggregatedAt date started' stored' t t₁)
    (hevents : s.movieEvents = t.movieEvents) {key : MetricKey}
    (hkey : (∀ metric ∈ payloadOf (started / 1000000)
        (selectedRows date (started / 1000000) fun _ => s.movieEvents), metric.key date ≠ key) →
      (s.dailyMetrics.lookup key).map StoredMetric.untimed =
        (t.dailyMetrics.lookup key).map StoredMetric.untimed) :
    (s₁.dailyMetrics.lookup key).map StoredMetric.untimed =
      (t₁.dailyMetrics.lookup key).map StoredMetric.untimed := by
  rw [h.metrics, h'.metrics]
  apply upsertRows_untimed _ hkey
  rw [payload_untimed, payload_untimed, hevents]

theorem AggregatedAt.again (h : AggregatedAt date started stored s s₁)
    (h' : AggregatedAt date started' stored' s₁ s₂) : SameResults s₁ s₂ where
  tables table other := by
    by_cases hother : other = date
    · subst hother
      rw [h.readFinal, h'.readFinal, h.movieEvents]
    · rw [readFinal_eq s₂, h'.others table other hother, ← readFinal_eq]
  metrics key := by
    apply h.metrics_untimed h' h.movieEvents.symm
    intro hnone
    rw [h.metrics, lookup_upsertRows_of_notMem hnone]

end Twice

/-- Two movies on day 5 and one on day 6. -/
def twoDays : EventLog :=
  [movieEventsMv ⟨3, "v", "b", .viewFinished, 86400000 * 6, .tv, "s", some 7, none, 1⟩,
    movieEventsMv ⟨2, "u", "b", .liked, 86400000 * 5, .mobile, "s", none, none, 1⟩,
    movieEventsMv ⟨1, "u", "a", .viewStarted, 86400000 * 5, .tv, "s", some 0, none, 1⟩]

/-- An aggregation of `date` and then one of `other`. -/
def inTurn (date other : Date) : Job (AggregationResult × AggregationResult) := do
  let first ← aggregateForDate date
  let second ← aggregateForDate other
  return (first, second)

end SoaHomework.MovieAnalytics

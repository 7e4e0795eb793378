import SoaHomework.Aggregation
import SoaHomework.ProgramRuns

/-!
# What an aggregation writes

The effect of each command on the rows of a table for a date, the keys of the
payload, and the state that a successful `aggregate_for_date` leaves when nothing
else runs (`aggregateForDate_runs`).
-/

namespace SoaHomework.MovieAnalytics

open StatementProgram SqlAggregates

/-! ## Rows of a date -/

section Rows

variable (s : Analytics) (table : MetricTable) (date : Date) (computedAt : Nat)

@[simp] theorem deleted_movieEvents : (s.deleted table date).movieEvents = s.movieEvents := rfl

@[simp] theorem inserted_movieEvents :
    (s.inserted table date computedAt).movieEvents = s.movieEvents := rfl

theorem upserted_dailyMetrics (i : Nat) (payload : List Metric) :
    (s.upserted i date payload).dailyMetrics =
      upsertRows date s.clock payload s.dailyMetrics := rfl

theorem deleted_rows_self : (s.deleted table date).rows table date = [] := by
  simp only [Analytics.rows, Analytics.deleted, Function.update_self, List.filter_filter,
    List.filter_eq_nil_iff]
  intro row _
  simp

theorem inserted_rows_self :
    (s.inserted table date computedAt).rows table date =
      s.rows table date ++ select table s.movieEvents date computedAt := by
  simp only [Analytics.rows, Analytics.inserted, Function.update_self, List.filter_append]
  congr 1
  rw [List.filter_eq_self]
  intro row hrow
  exact decide_eq_true (select_date hrow)

variable {table date}

/-- A `DELETE` leaves the other tables and dates as they were. -/
theorem deleted_rows_other {table' : MetricTable} {date' : Date}
    (h : table' ≠ table ∨ date' ≠ date) :
    (s.deleted table date).rows table' date' = s.rows table' date' := by
  by_cases htable : table' = table
  · subst htable
    have hdate : date' ≠ date := h.resolve_left fun hne => hne rfl
    simp only [Analytics.rows, Analytics.deleted, Function.update_self, List.filter_filter]
    apply List.filter_congr
    intro row _
    by_cases hrow : table'.date row = date'
    · simp [hrow, hdate]
    · simp [hrow]
  · simp only [Analytics.rows, Analytics.deleted, Function.update_of_ne htable]

theorem inserted_rows_other {table' : MetricTable} {date' : Date}
    (h : table' ≠ table ∨ date' ≠ date) :
    (s.inserted table date computedAt).rows table' date' = s.rows table' date' := by
  by_cases htable : table' = table
  · subst htable
    have hdate : date' ≠ date := h.resolve_left fun hne => hne rfl
    simp only [Analytics.rows, Analytics.inserted, Function.update_self, List.filter_append]
    rw [List.append_right_eq_self, List.filter_eq_nil_iff]
    intro row hrow heq
    exact hdate ((of_decide_eq_true heq).symm.trans (select_date hrow))
  · simp only [Analytics.rows, Analytics.inserted, Function.update_of_ne htable]

variable {s computedAt}

theorem orderRows_perm (table : MetricTable) (rows : List (Row table)) :
    (orderRows table rows).Perm rows := by
  cases table with
  | dailyTopMovies => exact List.perm_insertionSort _ _
  | deviceDistribution => exact List.perm_insertionSort _ _
  | dailyDau => exact List.Perm.refl _
  | dailyAvgWatchTime => exact List.Perm.refl _
  | dailyConversion => exact List.Perm.refl _
  | dailyRetention => exact List.Perm.refl _
  | retentionCohorts => exact List.Perm.refl _

/-- A `SELECT ... FINAL` for a date reads the rows of the date. -/
theorem readFinal_eq (s : Analytics) (table : MetricTable) (date : Date) :
    s.readFinal table date = orderRows table
      (ReplacingTable.final table.sameKey table.version (s.rows table date)) := by
  have hkey : ∀ a b : Row table, table.sameKey a b = true →
      decide (table.date a = date) = decide (table.date b = date) := by
    intro a b hab
    rw [MetricTable.date_of_sameKey hab]
  rw [Analytics.readFinal, ReplacingTable.filter_final hkey, Analytics.rows]

/-- Freshly selected rows are read back. -/
theorem readFinal_of_rows {log : EventLog}
    (h : s.rows table date = select table log date computedAt) :
    s.readFinal table date = orderRows table (select table log date computedAt) := by
  rw [readFinal_eq, h, ReplacingTable.final_eq_self (select_pairwise table log date computedAt)]

end Rows

/-! ## The payload -/

/-- The payload for the rows read from the tables. -/
def payloadOf (computedAt : Nat) (rows : (table : MetricTable) → List (Row table)) : List Metric :=
  dauMetrics computedAt (rows .dailyDau) ++ avgWatchMetrics computedAt (rows .dailyAvgWatchTime) ++
    conversionMetrics computedAt (rows .dailyConversion) ++
    retentionMetrics computedAt (rows .dailyRetention) ++
    (rows .dailyTopMovies).map (topMovieMetric computedAt) ++
    (rows .deviceDistribution).map (deviceMetric computedAt)

/-- The names of the metrics that every payload has. -/
def plainNames : List MetricName :=
  [.dau, .avgWatchSeconds, .viewStarted, .viewFinished, .conversionRate, .retentionD1,
    .retentionD7]

/-- The rows that a call reads when each table was selected from its own log. -/
def selectedRows (date : Date) (computedAt : Nat) (logs : MetricTable → EventLog)
    (table : MetricTable) : List (Row table) :=
  orderRows table (select table (logs table) date computedAt)

section Payload

variable (date : Date) (computedAt : Nat) (logs : MetricTable → EventLog)

/-- The metrics of the whole date, one for each name. -/
def plainMetrics : List Metric :=
  dauMetrics computedAt (selectedRows date computedAt logs .dailyDau) ++
    avgWatchMetrics computedAt (selectedRows date computedAt logs .dailyAvgWatchTime) ++
    conversionMetrics computedAt (selectedRows date computedAt logs .dailyConversion) ++
    retentionMetrics computedAt (selectedRows date computedAt logs .dailyRetention)

theorem payloadOf_selected :
    payloadOf computedAt (selectedRows date computedAt logs) =
      plainMetrics date computedAt logs ++
        (selectedRows date computedAt logs .dailyTopMovies).map (topMovieMetric computedAt) ++
        (selectedRows date computedAt logs .deviceDistribution).map (deviceMetric computedAt) :=
  rfl

theorem plainMetrics_names :
    (plainMetrics date computedAt logs).map (·.metricName) = plainNames := rfl

theorem plainMetrics_dimensions {metric : Metric}
    (h : metric ∈ plainMetrics date computedAt logs) :
    metric.dimensionKey = "" ∧ metric.dimensionValue = "" := by
  have hall : ∀ m ∈ plainMetrics date computedAt logs,
      m.dimensionKey = "" ∧ m.dimensionValue = "" := by
    simp only [plainMetrics, selectedRows, orderRows, select, selectDau, selectAvgWatchTime,
      selectConversion, selectRetention, dauMetrics, avgWatchMetrics, conversionMetrics,
      retentionMetrics, List.cons_append, List.nil_append, List.forall_mem_cons,
      List.not_mem_nil, false_implies, implies_true, plainMetric, and_self]
  exact hall metric h

/-- The movies of a ranking are different. -/
theorem selectTopMovies_nodup (log : EventLog) :
    ((selectTopMovies log date computedAt).map (·.movieId)).Nodup := by
  have hmovies : ((movieViews log date).map (·.movieId)).Nodup := by
    simp only [movieViews, List.map_map, Function.comp_def]
    rw [groupBy_keys (·.movieId) (onDate log date)]
    exact List.nodup_dedup _
  have hsorted := ((List.perm_insertionSort MovieViews.le (movieViews log date)).map
    (·.movieId)).nodup_iff.mpr hmovies
  simp only [selectTopMovies, List.map_map, Function.comp_def, ranked_eq]
  rw [← Function.comp_def MovieViews.movieId Prod.fst, ← List.map_map, List.zipIdx_map_fst]
  exact hsorted.sublist ((List.take_sublist 10 _).map _)

theorem selectDeviceDistribution_nodup (log : EventLog) :
    ((selectDeviceDistribution log date computedAt).map (·.deviceType)).Nodup := by
  simp only [selectDeviceDistribution, List.map_map, Function.comp_def]
  rw [groupBy_keys (·.deviceType) (onDate log date)]
  exact List.nodup_dedup _

/-- The entries of a payload have different keys. -/
theorem payload_keys_nodup :
    ((payloadOf computedAt (selectedRows date computedAt logs)).map (Metric.key date)).Nodup := by
  rw [payloadOf_selected, List.map_append, List.map_append, List.nodup_append, List.nodup_append]
  have hplain : ((plainMetrics date computedAt logs).map (Metric.key date)).Nodup := by
    refine List.Nodup.of_map (fun key => key.metricName) ?_
    rw [List.map_map, Function.comp_def]
    exact (plainMetrics_names date computedAt logs).symm ▸ (by decide)
  have hmovies : ((selectedRows date computedAt logs .dailyTopMovies).map
      (·.movieId)).Nodup :=
    ((orderRows_perm .dailyTopMovies _).map (·.movieId)).nodup_iff.mpr
      (selectTopMovies_nodup date computedAt _)
  have hdevices : ((selectedRows date computedAt logs .deviceDistribution).map
      (·.deviceType.value)).Nodup := by
    have htypes : ((selectedRows date computedAt logs .deviceDistribution).map
        DeviceEvents.deviceType).Nodup :=
      ((orderRows_perm .deviceDistribution _).map DeviceEvents.deviceType).nodup_iff.mpr
        (selectDeviceDistribution_nodup date computedAt _)
    have hvalues := htypes.map DeviceType.value_injective
    rwa [List.map_map] at hvalues
  have hname : ∀ key ∈ (plainMetrics date computedAt logs).map (Metric.key date),
      key.metricName ∈ plainNames := by
    intro key hkey
    obtain ⟨metric, hmetric, rfl⟩ := List.mem_map.mp hkey
    rw [← plainMetrics_names date computedAt logs]
    exact List.mem_map_of_mem hmetric
  refine ⟨⟨hplain, ?_, ?_⟩, ?_, ?_⟩
  · refine List.Nodup.of_map (fun key => key.dimensionValue) ?_
    simpa [List.map_map, Function.comp_def, Metric.key, topMovieMetric] using hmovies
  · intro key hkey key' hkey' heq
    obtain ⟨metric, hmetric, rfl⟩ := List.mem_map.mp hkey'
    obtain ⟨row, _, rfl⟩ := List.mem_map.mp hmetric
    have hmem := hname key hkey
    rw [heq] at hmem
    exact absurd hmem (show MetricName.topMovieViews ∉ plainNames by decide)
  · refine List.Nodup.of_map (fun key => key.dimensionValue) ?_
    simpa [List.map_map, Function.comp_def, Metric.key, deviceMetric] using hdevices
  · intro key hkey key' hkey' heq
    obtain ⟨metric, hmetric, rfl⟩ := List.mem_map.mp hkey'
    obtain ⟨row, _, rfl⟩ := List.mem_map.mp hmetric
    subst heq
    rcases List.mem_append.mp hkey with hplain' | htop
    · exact absurd (hname _ hplain') (show MetricName.deviceEvents ∉ plainNames by decide)
    · obtain ⟨metric, hmetric, heq⟩ := List.mem_map.mp htop
      obtain ⟨row', _, rfl⟩ := List.mem_map.mp hmetric
      cases congrArg MetricKey.metricName heq

end Payload

/-! ## The upsert -/

section Upsert

variable {date : Date} {now : Nat} {payload : List Metric} {stored : DailyMetrics}

theorem lookup_upsertRows_of_notMem {key : MetricKey}
    (h : ∀ metric ∈ payload, metric.key date ≠ key) :
    (upsertRows date now payload stored).lookup key = stored.lookup key := by
  induction payload generalizing stored with
  | nil => rfl
  | cons first payload ih =>
      obtain ⟨hfirst, hrest⟩ := List.forall_mem_cons.mp h
      exact (ih hrest).trans (AList.lookup_insert_ne hfirst.symm)

theorem lookup_upsertRows_of_mem (hnodup : (payload.map (Metric.key date)).Nodup)
    {metric : Metric} (h : metric ∈ payload) :
    (upsertRows date now payload stored).lookup (metric.key date) =
      some ⟨metric.metricValue, now, metric.metadata⟩ := by
  induction payload generalizing stored with
  | nil => cases h
  | cons first payload ih =>
      obtain ⟨hfirst, hrest⟩ := List.nodup_cons.mp hnodup
      rcases List.mem_cons.mp h with rfl | hmem
      · have hne : ∀ other ∈ payload, other.key date ≠ metric.key date := by
          intro other hother heq
          exact hfirst (heq ▸ List.mem_map_of_mem hother)
        exact (lookup_upsertRows_of_notMem hne).trans (AList.lookup_insert _)
      · exact ih hrest hmem

/-- A transaction that is executed again changes nothing. -/
theorem lookup_upsertRows_congr (hnodup : (payload.map (Metric.key date)).Nodup)
    {stored' : DailyMetrics}
    (h : ∀ key, (∀ metric ∈ payload, metric.key date ≠ key) →
      stored.lookup key = stored'.lookup key) (key : MetricKey) :
    (upsertRows date now payload stored).lookup key =
      (upsertRows date now payload stored').lookup key := by
  by_cases hkey : ∀ metric ∈ payload, metric.key date ≠ key
  · rw [lookup_upsertRows_of_notMem hkey, lookup_upsertRows_of_notMem hkey, h key hkey]
  · push Not at hkey
    obtain ⟨metric, hmetric, rfl⟩ := hkey
    rw [lookup_upsertRows_of_mem hnodup hmetric, lookup_upsertRows_of_mem hnodup hmetric]

end Upsert

/-! ## An aggregation alone -/

theorem settle_ok {α : Type} {fate : Fate} {value value' : α} {before after s' : Analytics}
    (h : settle fate value before after = (.ok value', s')) : value' = value ∧ s' = after := by
  cases fate with
  | done =>
      cases h
      exact ⟨rfl, rfl⟩
  | failed => cases h
  | lost => cases h

/-- A raised error leaves what was there or the effect of the command. -/
theorem settle_error {α : Type} {fate : Fate} {value : α} {before after s' : Analytics}
    {failure : Failure} (h : settle fate value before after = (.error failure, s')) :
    s' = before ∨ s' = after := by
  cases fate with
  | done => cases h
  | failed =>
      cases h
      exact Or.inl rfl
  | lost =>
      cases h
      exact Or.inr rfl

/-- The clock has moved on. -/
def Analytics.later (s : Analytics) (microseconds : Nat) : Analytics :=
  { s with clock := s.clock + microseconds }

/-- A command, after which some time passes. -/
def execTimed (i : Nat) (c : Command) (choice : Fate × Nat) (s : Analytics) :
    Option (Reply c × Analytics) :=
  (exec i c choice.1 s).map fun result => (result.1, result.2.later choice.2)

theorem later_later (s : Analytics) (m n : Nat) : (s.later m).later n = s.later (m + n) := by
  simp only [Analytics.later, Nat.add_assoc]

section Alone

variable {i : Nat} {s s' : Analytics} {date : Date} {computedAt : Nat}

/-- Time need not pass. -/
theorem runs_timed {α : Type} {p : Job α} {result : Except Failure α}
    (h : p.Runs (exec i) s result s') : p.Runs (execTimed i) s result s' := by
  induction h with
  | ret value s => exact .ret value s
  | fail error s => exact .fail error s
  | step choice hexec _ ih =>
      refine .step (choice, 0) ?_ ih
      rw [execTimed, hexec]
      rfl

theorem settle_clock {α : Type} {fate : Fate} {value : α} {before after : Analytics}
    {answer : Except Failure α} (h : some (settle fate value before after) = some (answer, s'))
    (hclock : after.clock = before.clock) : s'.clock = before.clock := by
  cases fate with
  | done =>
      cases h
      exact hclock
  | failed =>
      cases h
      rfl
  | lost =>
      cases h
      exact hclock

theorem exec_clock {c : Command} {fate : Fate} {answer : Reply c}
    (h : exec i c fate s = some (answer, s')) : s'.clock = s.clock := by
  cases c with
  | now =>
      cases h
      rfl
  | countRawRows date => exact (settle_clock h rfl : s'.clock = (s.began i date).clock)
  | deleteFrom table date => exact settle_clock h rfl
  | insertInto table date computedAt => exact settle_clock h rfl
  | selectFinal table date => exact settle_clock h rfl
  | upsert date payload => exact settle_clock h rfl
  | fetch date => exact settle_clock h rfl
  | putObject date rows => exact settle_clock h rfl

theorem runs_clock {α : Type} {p : Job α} {result : Except Failure α}
    (h : p.Runs (exec i) s result s') : s'.clock = s.clock := by
  induction h with
  | ret value s => rfl
  | fail error s => rfl
  | step choice hexec _ ih => exact ih.trans (exec_clock hexec)

theorem runs_command {c : Command} {result : Reply c} :
    (command c).Runs (execTimed i) s result s' ↔
      ∃ fate s₁ m, exec i c fate s = some (result, s₁) ∧ s' = s₁.later m := by
  rw [command, Program.runs_step]
  constructor
  · rintro ⟨⟨fate, m⟩, answer, _, hexec, hrest⟩
    obtain ⟨⟨answer', s₁⟩, hexec', heq⟩ := Option.map_eq_some_iff.mp hexec
    cases heq
    cases answer' with
    | ok value =>
        obtain ⟨rfl, rfl⟩ := Program.runs_ret.mp hrest
        exact ⟨fate, s₁, m, hexec', rfl⟩
    | error failure =>
        obtain ⟨rfl, rfl⟩ := Program.runs_fail.mp hrest
        exact ⟨fate, s₁, m, hexec', rfl⟩
  · rintro ⟨fate, s₁, m, hexec, rfl⟩
    refine ⟨(fate, m), result, s₁.later m, Option.map_eq_some_iff.mpr ⟨_, hexec, rfl⟩, ?_⟩
    cases result with
    | ok value => exact .ret value _
    | error failure => exact .fail failure _

/-- A command that has the effect `after` and succeeds. -/
theorem runs_settled {c : Command} {value value' : Result c} {after : Analytics}
    (hsettle : ∀ fate, exec i c fate s = some (settle fate value s after))
    (h : (command c).Runs (execTimed i) s (.ok value') s') :
    value' = value ∧ ∃ m, s' = after.later m := by
  obtain ⟨fate, s₁, m, hexec, rfl⟩ := runs_command.mp h
  rw [hsettle] at hexec
  obtain ⟨hvalue, rfl⟩ := settle_ok (Option.some.inj hexec)
  exact ⟨hvalue, m, rfl⟩

theorem runs_rewrite {table : MetricTable}
    (h : (rewrite table date computedAt).Runs (execTimed i) s (.ok ()) s') :
    ∃ m, s' = ((s.deleted table date).inserted table date computedAt).later m := by
  obtain ⟨_, _, hdelete, hinsert⟩ := Program.runs_bind_ok.mp h
  obtain ⟨_, m, rfl⟩ := runs_settled (fun _ => rfl) hdelete
  obtain ⟨_, n, rfl⟩ := runs_settled (fun _ => rfl) hinsert
  exact ⟨m + n, later_later ((s.deleted table date).inserted table date computedAt) m n⟩

theorem runs_selectFinal {table : MetricTable} {rows : List (Row table)}
    (h : (command (.selectFinal table date)).Runs (execTimed i) s (.ok rows) s') :
    rows = s.readFinal table date ∧ ∃ m, s' = s.later m :=
  runs_settled (fun _ => rfl) h

theorem readFinal_later (m : Nat) (table : MetricTable) :
    (s.later m).readFinal table date = s.readFinal table date := rfl

theorem runs_buildMetricPayload {payload : List Metric}
    (h : (buildMetricPayload date computedAt).Runs (execTimed i) s (.ok payload) s') :
    payload = payloadOf computedAt (fun table => s.readFinal table date) ∧
      ∃ m, s' = s.later m := by
  obtain ⟨_, _, h₁, h⟩ := Program.runs_bind_ok.mp h
  obtain ⟨rfl, m₁, rfl⟩ := runs_selectFinal h₁
  obtain ⟨_, _, h₂, h⟩ := Program.runs_bind_ok.mp h
  obtain ⟨rfl, m₂, rfl⟩ := runs_selectFinal h₂
  obtain ⟨_, _, h₃, h⟩ := Program.runs_bind_ok.mp h
  obtain ⟨rfl, m₃, rfl⟩ := runs_selectFinal h₃
  obtain ⟨_, _, h₄, h⟩ := Program.runs_bind_ok.mp h
  obtain ⟨rfl, m₄, rfl⟩ := runs_selectFinal h₄
  obtain ⟨_, _, h₅, h⟩ := Program.runs_bind_ok.mp h
  obtain ⟨rfl, m₅, rfl⟩ := runs_selectFinal h₅
  obtain ⟨_, _, h₆, h⟩ := Program.runs_bind_ok.mp h
  obtain ⟨rfl, m₆, rfl⟩ := runs_selectFinal h₆
  obtain ⟨hpayload, rfl⟩ := Program.runs_ret.mp h
  simp only [later_later, readFinal_later] at hpayload ⊢
  exact ⟨Except.ok.inj hpayload, _, rfl⟩

/-- The state after an upsert that has succeeded at the last of its attempts. -/
theorem runs_upsertMetrics {payload : List Metric}
    (hnodup : (payload.map (Metric.key date)).Nodup) (hne : payload ≠ [])
    (h : (upsertMetrics date payload).Runs (execTimed i) s (.ok ()) s') :
    s'.movieEvents = s.movieEvents ∧ s'.tables = s.tables ∧
      ∃ now, s.clock ≤ now ∧ now ≤ s'.clock ∧ ∀ key, s'.dailyMetrics.lookup key =
        (upsertRows date now payload s.dailyMetrics).lookup key := by
  have hkept : ∀ x : Analytics, (∀ key, (∀ metric ∈ payload, metric.key date ≠ key) →
      x.dailyMetrics.lookup key = s.dailyMetrics.lookup key) →
      ∀ key, (∀ metric ∈ payload, metric.key date ≠ key) →
        (x.upserted i date payload).dailyMetrics.lookup key = s.dailyMetrics.lookup key :=
    fun x hx key hkey => (lookup_upsertRows_of_notMem hkey).trans (hx key hkey)
  rw [upsertMetrics, if_neg hne] at h
  refine Program.runs_retry
    (P := fun x => x.movieEvents = s.movieEvents ∧ x.tables = s.tables ∧ s.clock ≤ x.clock ∧
      ∀ key, (∀ metric ∈ payload, metric.key date ≠ key) →
        x.dailyMetrics.lookup key = s.dailyMetrics.lookup key)
    (Q := fun _ x => x.movieEvents = s.movieEvents ∧ x.tables = s.tables ∧
      ∃ now, s.clock ≤ now ∧ now ≤ x.clock ∧ ∀ key, x.dailyMetrics.lookup key =
        (upsertRows date now payload s.dailyMetrics).lookup key)
    ?_ ?_ retries ⟨rfl, rfl, Nat.le_refl _, fun _ _ => rfl⟩ h
  · rintro x failure x' ⟨hevents, htables, hclock, hlookup⟩ hrun
    obtain ⟨fate, x₁, m, hexec, rfl⟩ := runs_command.mp hrun
    rcases settle_error (Option.some.inj hexec) with rfl | rfl
    · exact ⟨hevents, htables, Nat.le_add_right_of_le hclock, hlookup⟩
    · exact ⟨hevents, htables, Nat.le_add_right_of_le hclock, hkept x hlookup⟩
  · rintro x _ x' ⟨hevents, htables, hclock, hlookup⟩ hrun
    obtain ⟨_, m, rfl⟩ := runs_settled (fun _ => rfl) hrun
    refine ⟨hevents, htables, x.clock, hclock, Nat.le_add_right _ m, fun key => ?_⟩
    exact lookup_upsertRows_congr hnodup hlookup key

/-! ### The rewrites -/

/-- The tables in the order in which they are rewritten. -/
def metricTables : List MetricTable :=
  [.dailyDau, .dailyAvgWatchTime, .dailyTopMovies, .dailyConversion, .dailyRetention,
    .deviceDistribution, .retentionCohorts]

theorem mem_metricTables (table : MetricTable) : table ∈ metricTables := by
  cases table <;> decide

def rewriteTables (date : Date) (computedAt : Nat) : List MetricTable → Job Unit
  | [] => .ret ()
  | table :: tables => do
      rewrite table date computedAt
      rewriteTables date computedAt tables

/-- An aggregation rewrites all tables and then builds and stores the payload. -/
theorem aggregateForDate_eq (date : Date) :
    aggregateForDate date = do
      let processedRows ← command (.countRawRows date)
      let now ← command .now
      rewriteTables date (now / 1000000) metricTables
      let metrics ← buildMetricPayload date (now / 1000000)
      upsertMetrics date metrics
      return ⟨date, processedRows, metrics.length⟩ := by
  simp only [metricTables, rewriteTables, Program.bind_assoc, Program.ret_bind]
  rfl

/-- The state after the rewrites. -/
def Analytics.rewritten (s : Analytics) (date : Date) (computedAt : Nat) :
    List MetricTable → Analytics
  | [] => s
  | table :: tables =>
      ((s.deleted table date).inserted table date computedAt).rewritten date computedAt tables

theorem rewritten_later (s : Analytics) (tables : List MetricTable) (m : Nat) :
    (s.later m).rewritten date computedAt tables =
      (s.rewritten date computedAt tables).later m := by
  induction tables generalizing s with
  | nil => rfl
  | cons table tables ih => exact ih ((s.deleted table date).inserted table date computedAt)

theorem runs_rewriteTables {tables : List MetricTable}
    (h : (rewriteTables date computedAt tables).Runs (execTimed i) s (.ok ()) s') :
    ∃ m, s' = (s.rewritten date computedAt tables).later m := by
  induction tables generalizing s with
  | nil => exact ⟨0, (Program.runs_ret.mp h).2⟩
  | cons table tables ih =>
      obtain ⟨_, _, hfirst, hrest⟩ := Program.runs_bind_ok.mp h
      obtain ⟨m, rfl⟩ := runs_rewrite hfirst
      obtain ⟨n, rfl⟩ := ih hrest
      rw [rewritten_later, later_later]
      exact ⟨m + n, rfl⟩

theorem rewritten_frame (s : Analytics) (date : Date) (computedAt : Nat)
    (tables : List MetricTable) :
    (s.rewritten date computedAt tables).movieEvents = s.movieEvents ∧
      (s.rewritten date computedAt tables).dailyMetrics = s.dailyMetrics ∧
      (s.rewritten date computedAt tables).clock = s.clock := by
  induction tables generalizing s with
  | nil => exact ⟨rfl, rfl, rfl⟩
  | cons table tables ih => exact ih _

theorem rewritten_rows_other {tables : List MetricTable} {table : MetricTable} {other : Date}
    (h : other ≠ date ∨ table ∉ tables) :
    (s.rewritten date computedAt tables).rows table other = s.rows table other := by
  induction tables generalizing s with
  | nil => rfl
  | cons first tables ih =>
      have hfirst : table ≠ first ∨ other ≠ date := by
        rcases h with hdate | hmem
        · exact Or.inr hdate
        · exact Or.inl fun heq => hmem (heq ▸ List.mem_cons_self)
      have hrest : other ≠ date ∨ table ∉ tables :=
        h.imp_right fun hmem hin => hmem (List.mem_cons_of_mem _ hin)
      rw [Analytics.rewritten, ih hrest, inserted_rows_other _ _ hfirst,
        deleted_rows_other _ hfirst]

theorem rewritten_rows {tables : List MetricTable} (hnodup : tables.Nodup) {table : MetricTable}
    (h : table ∈ tables) :
    (s.rewritten date computedAt tables).rows table date =
      select table s.movieEvents date computedAt := by
  induction tables generalizing s with
  | nil => cases h
  | cons first tables ih =>
      obtain ⟨hfirst, hrest⟩ := List.nodup_cons.mp hnodup
      rw [Analytics.rewritten]
      rcases List.mem_cons.mp h with rfl | hmem
      · rw [rewritten_rows_other (Or.inr hfirst), inserted_rows_self, deleted_rows_self,
          List.nil_append, deleted_movieEvents]
      · rw [ih hrest hmem, inserted_movieEvents, deleted_movieEvents]

/-- What a successful aggregation of `date` leaves that has read the clock at
    `started` and stored its metrics at `stored`. -/
structure AggregatedAt (date : Date) (started stored : Nat) (s s' : Analytics) : Prop where
  movieEvents : s'.movieEvents = s.movieEvents
  rows : ∀ table, s'.rows table date = select table s.movieEvents date (started / 1000000)
  others : ∀ table other, other ≠ date → s'.rows table other = s.rows table other
  metrics : ∀ key, s'.dailyMetrics.lookup key =
    (upsertRows date stored (payloadOf (started / 1000000)
      (selectedRows date (started / 1000000) fun _ => s.movieEvents)) s.dailyMetrics).lookup key
  began : s.clock ≤ started
  order : started ≤ stored
  ended : stored ≤ s'.clock

theorem payloadOf_ne_nil (logs : MetricTable → EventLog) :
    payloadOf computedAt (selectedRows date computedAt logs) ≠ [] :=
  List.cons_ne_nil _ _

theorem aggregateForDate_timed {result : AggregationResult}
    (h : (aggregateForDate date).Runs (execTimed i) s (.ok result) s') :
    ∃ started stored, AggregatedAt date started stored s s' := by
  rw [aggregateForDate_eq] at h
  obtain ⟨_, _, hcount, h⟩ := Program.runs_bind_ok.mp h
  obtain ⟨_, _, m₁, hexec, rfl⟩ := runs_command.mp hcount
  obtain ⟨_, rfl⟩ := settle_ok (Option.some.inj hexec)
  obtain ⟨started, _, hnow, h⟩ := Program.runs_bind_ok.mp h
  obtain ⟨_, _, m₂, hexec, rfl⟩ := runs_command.mp hnow
  obtain ⟨hclock, rfl⟩ := Prod.mk.inj (Option.some.inj hexec)
  have hstarted : s.clock + m₁ = started := Except.ok.inj hclock
  obtain ⟨_, _, hrewrites, h⟩ := Program.runs_bind_ok.mp h
  obtain ⟨m₃, rfl⟩ := runs_rewriteTables hrewrites
  obtain ⟨payload, _, hpayload, h⟩ := Program.runs_bind_ok.mp h
  obtain ⟨rfl, m₄, rfl⟩ := runs_buildMetricPayload hpayload
  obtain ⟨_, _, hupsert, h⟩ := Program.runs_bind_ok.mp h
  obtain ⟨_, rfl⟩ := Program.runs_ret.mp h
  simp only [rewritten_later, later_later, readFinal_later] at hupsert
  obtain ⟨hevents, hmetrics, hclock⟩ :=
    rewritten_frame (s.began i date) date (started / 1000000) metricTables
  have hrows : ∀ table,
      ((s.began i date).rewritten date (started / 1000000) metricTables).rows table date =
        select table s.movieEvents date (started / 1000000) :=
    fun table => rewritten_rows (by decide) (mem_metricTables table)
  have hread : (fun table => ((s.began i date).rewritten date (started / 1000000)
      metricTables).readFinal table date) =
        selectedRows date (started / 1000000) fun _ => s.movieEvents :=
    funext fun table => readFinal_of_rows (hrows table)
  rw [hread] at hupsert
  obtain ⟨hevents', htables', stored, hbefore, hafter, hmetrics'⟩ :=
    runs_upsertMetrics (payload_keys_nodup _ _ _) (payloadOf_ne_nil _) hupsert
  have hrows' : ∀ table other, s'.rows table other =
      ((s.began i date).rewritten date (started / 1000000) metricTables).rows table other := by
    intro table other
    simp only [Analytics.rows, htables']
    rfl
  have hlater : s.clock + m₁ ≤ stored := by
    simp only [Analytics.later, hclock] at hbefore
    have hbegan : (s.began i date).clock = s.clock := rfl
    omega
  refine ⟨started, stored, hevents'.trans hevents,
    fun table => (hrows' table date).trans (hrows table), ?_, ?_, ?_, ?_, hafter⟩
  · intro table other hother
    exact (hrows' table other).trans (rewritten_rows_other (Or.inl hother))
  · intro key
    rw [hmetrics' key]
    simp only [Analytics.later, hmetrics]
    rfl
  · omega
  · omega

/-- What a successful aggregation of `date` leaves. -/
structure Aggregated (date : Date) (s s' : Analytics) : Prop where
  movieEvents : s'.movieEvents = s.movieEvents
  rows : ∀ table, s'.rows table date = select table s.movieEvents date (s.clock / 1000000)
  others : ∀ table other, other ≠ date → s'.rows table other = s.rows table other
  metrics : ∀ key, s'.dailyMetrics.lookup key =
    (upsertRows date s.clock (payloadOf (s.clock / 1000000)
      (selectedRows date (s.clock / 1000000) fun _ => s.movieEvents)) s.dailyMetrics).lookup key

theorem aggregateForDate_runs {result : AggregationResult}
    (h : (aggregateForDate date).Runs (exec i) s (.ok result) s') : Aggregated date s s' := by
  obtain ⟨started, stored, haggregated⟩ := aggregateForDate_timed (runs_timed h)
  have hclock := runs_clock h
  have hended := haggregated.ended
  have horder := haggregated.order
  obtain rfl : started = s.clock := Nat.le_antisymm (by omega) haggregated.began
  obtain rfl : stored = s.clock := Nat.le_antisymm (by omega) (by omega)
  exact ⟨haggregated.movieEvents, haggregated.rows, haggregated.others, haggregated.metrics⟩

end Alone

end SoaHomework.MovieAnalytics

import SoaHomework.Retention

/-!
# Redelivered events

`movie_events` keeps every copy of an event that arrives again. The queries over
distinct users do not see a second copy; the counts and the average of its date
do.
-/

namespace SoaHomework.MovieAnalytics

open StatementProgram SqlAggregates

variable {log log' : EventLog} {date : Date} {computedAt : Nat}

/-! ## Queries that only see which events there are -/

section SameEvents

variable (h : ∀ row, row ∈ log ↔ row ∈ log')

include h

theorem watched_congr (user : String) (day : Date) :
    Watched log user day ↔ Watched log' user day := by
  simp only [Watched, h]

theorem firstSeen_congr (user : String) : FirstSeen log date user ↔ FirstSeen log' date user := by
  simp only [FirstSeen, watched_congr h, h]

theorem cohort_congr : cohort log date = cohort log' date := by
  ext user
  rw [mem_cohort, mem_cohort, firstSeen_congr h]

theorem returned_congr (days : Nat) : returned log date days = returned log' date days := by
  ext user
  rw [mem_returned, mem_returned, firstSeen_congr h, watched_congr h]

theorem counted_congr (day : Nat) : counted log date day = counted log' date day := by
  ext user
  simp only [mem_counted, firstSeen_congr h, h]

theorem selectDau_congr : selectDau log date computedAt = selectDau log' date computedAt := by
  have husers : uniqExact (·.userId) (onDate log date) =
      uniqExact (·.userId) (onDate log' date) := by
    apply uniqExact_congr
    intro user
    simp only [mem_onDate, h]
  simp only [selectDau, husers]

theorem selectRetention_congr :
    selectRetention log date computedAt = selectRetention log' date computedAt := by
  rw [selectRetention_eq, selectRetention_eq]
  simp only [returnRate, returned_congr h, cohort_congr h]

theorem selectRetentionCohorts_congr :
    selectRetentionCohorts log date computedAt = selectRetentionCohorts log' date computedAt := by
  rw [selectRetentionCohorts_eq, selectRetentionCohorts_eq]
  have hrow : cohortRow log date computedAt = cohortRow log' date computedAt := by
    funext day
    simp only [cohortRow, counted_congr h, cohort_congr h]
  simp only [counted_congr h, hrow]

end SameEvents

/-! ## Queries over the events of a date -/

theorem onDate_cons_of_ne {row : EventRow} (h : row.eventDate ≠ date) :
    onDate (row :: log) date = onDate log date :=
  List.filter_cons_of_neg (by simpa using h)

theorem mem_selectDeviceDistribution {row : DeviceEvents} :
    row ∈ selectDeviceDistribution log date computedAt ↔
      (∃ event ∈ onDate log date, event.deviceType = row.deviceType) ∧
      row = ⟨date, row.deviceType, (onDate log date).countP fun event =>
        decide (event.deviceType = row.deviceType), computedAt⟩ := by
  simp only [selectDeviceDistribution, List.mem_map, List.countP_eq_length_filter]
  constructor
  · rintro ⟨⟨device, members⟩, hmem, rfl⟩
    obtain ⟨hkey, rfl⟩ := mem_groupBy.mp hmem
    exact ⟨hkey, rfl⟩
  · rintro ⟨hkey, heq⟩
    exact ⟨(row.deviceType, _), mem_groupBy.mpr ⟨hkey, rfl⟩, heq.symm⟩

/-- A second copy of an event of another date changes no query. -/
theorem select_redelivered {row : EventRow} (hmem : row ∈ log) (hdate : row.eventDate ≠ date)
    (table : MetricTable) :
    select table (row :: log) date computedAt = select table log date computedAt := by
  have hsame : ∀ other, other ∈ row :: log ↔ other ∈ log := by
    intro other
    rw [List.mem_cons, or_iff_right_iff_imp]
    rintro rfl
    exact hmem
  have honDate : onDate (row :: log) date = onDate log date := onDate_cons_of_ne hdate
  cases table with
  | dailyDau => exact selectDau_congr hsame
  | dailyRetention => exact selectRetention_congr hsame
  | retentionCohorts => exact selectRetentionCohorts_congr hsame
  | dailyAvgWatchTime => simp only [select, selectAvgWatchTime, honDate]
  | dailyTopMovies => simp only [select, selectTopMovies, movieViews, honDate]
  | dailyConversion => simp only [select, selectConversion, honDate]
  | deviceDistribution => simp only [select, selectDeviceDistribution, honDate]

/-- A second copy of an event of the date itself is counted for its device. -/
theorem deviceDistribution_redelivered {row : EventRow} (hmem : row ∈ log)
    (hdate : row.eventDate = date) :
    ¬ (selectDeviceDistribution (row :: log) date computedAt).Perm
      (selectDeviceDistribution log date computedAt) := by
  intro hperm
  let n := (onDate log date).countP fun event => decide (event.deviceType = row.deviceType)
  have hold : (⟨date, row.deviceType, n, computedAt⟩ : DeviceEvents) ∈
      selectDeviceDistribution log date computedAt :=
    mem_selectDeviceDistribution.mpr ⟨⟨row, mem_onDate.mpr ⟨hmem, hdate⟩, rfl⟩, rfl⟩
  have hnew := (mem_selectDeviceDistribution.mp (hperm.mem_iff.mpr hold)).2
  have hcount : (onDate (row :: log) date).countP
      (fun event => decide (event.deviceType = row.deviceType)) = n + 1 := by
    rw [onDate, List.filter_cons_of_pos (by simpa using hdate),
      List.countP_cons_of_pos (by simp)]
    rfl
  rw [hcount] at hnew
  exact absurd (congrArg DeviceEvents.events hnew) (Nat.ne_of_lt (Nat.lt_succ_self n))

/-! ## An aggregation after a redelivery -/

/-- All that an aggregation of `date` has computed is the same in two states. -/
structure SameMetrics (date : Date) (s s' : Analytics) : Prop where
  tables : ∀ table, s.readFinal table date = s'.readFinal table date
  metrics : ∀ key, s.dailyMetrics.lookup key = s'.dailyMetrics.lookup key

/-- After the event has arrived once more, the metrics of a date are the same
    exactly when the event is not of that date. -/
theorem metrics_redelivered {i i' : Nat} {s s₁ s₂ : Analytics} {event : MovieEvent}
    {result result' : AggregationResult} (hmem : movieEventsMv event ∈ s.movieEvents)
    (honce : (aggregateForDate date).Runs (exec i) s (.ok result) s₁)
    (htwice : (aggregateForDate date).Runs (exec i') (s.after (.arrive event)) (.ok result') s₂) :
    SameMetrics date s₁ s₂ ↔ toDate event.timestamp ≠ date := by
  have h₁ := aggregateForDate_runs honce
  have h₂ := aggregateForDate_runs htwice
  have hread₁ := fun table => readFinal_of_rows (h₁.rows table)
  have hread₂ := fun table => readFinal_of_rows (h₂.rows table)
  constructor
  · intro hsame hdate
    have htable := hsame.tables .deviceDistribution
    rw [hread₁, hread₂] at htable
    have hperm : (selectDeviceDistribution (s.after (.arrive event)).movieEvents date
        (s.clock / 1000000)).Perm
          (selectDeviceDistribution s.movieEvents date (s.clock / 1000000)) := by
      refine (orderRows_perm .deviceDistribution _).symm.trans ?_
      exact htable ▸ orderRows_perm .deviceDistribution _
    exact deviceDistribution_redelivered hmem hdate hperm
  · intro hdate
    have hselect : ∀ table, select table (s.after (.arrive event)).movieEvents date
        (s.clock / 1000000) = select table s.movieEvents date (s.clock / 1000000) :=
      fun table => select_redelivered hmem hdate table
    refine ⟨?_, ?_⟩
    · intro table
      rw [hread₁, hread₂]
      exact congrArg (orderRows table) (hselect table).symm
    · intro key
      rw [h₁.metrics, h₂.metrics]
      have hrows : selectedRows date (s.clock / 1000000)
          (fun _ => (s.after (.arrive event)).movieEvents) =
            selectedRows date (s.clock / 1000000) fun _ => s.movieEvents :=
        funext fun table => congrArg (orderRows table) (hselect table)
      exact congrArg (fun rows => (upsertRows date s.clock
        (payloadOf (s.clock / 1000000) rows) s.dailyMetrics).lookup key) hrows.symm

/-- The retention of day 10 is unmoved by a second copy of an event of day 11. -/
theorem metrics_redelivered_sample : ∃ s₁ s₂,
    (aggregateForDate 10).Runs (exec 0) (.initial 0 weekLog fun _ => []) (.ok ⟨10, 2, 9⟩) s₁ ∧
    (aggregateForDate 10).Runs (exec 0)
      ((Analytics.initial 0 weekLog fun _ => []).after (.arrive (viewOn "u" 11).toMovieEvent))
      (.ok ⟨10, 2, 9⟩) s₂ ∧ SameMetrics 10 s₁ s₂ := by
  obtain ⟨s₁, honce⟩ : ∃ s₁, (aggregateForDate 10).Runs (exec 0)
      (.initial 0 weekLog fun _ => []) (.ok ⟨10, 2, 9⟩) s₁ :=
    Program.exists_runs_of_alone .done (by decide +kernel)
  obtain ⟨s₂, htwice⟩ : ∃ s₂, (aggregateForDate 10).Runs (exec 0)
      ((Analytics.initial 0 weekLog fun _ => []).after (.arrive (viewOn "u" 11).toMovieEvent))
      (.ok ⟨10, 2, 9⟩) s₂ :=
    Program.exists_runs_of_alone .done (by decide +kernel)
  exact ⟨s₁, s₂, honce, htwice, (metrics_redelivered (by decide +kernel) honce htwice).mpr
    (by decide +kernel)⟩

/-- A second copy of a view of day 10 is counted as a second view that started. -/
theorem metrics_redelivered_counted : ∃ s₁ s₂,
    (aggregateForDate 10).Runs (exec 0) (.initial 0 weekLog fun _ => []) (.ok ⟨10, 2, 9⟩) s₁ ∧
    (aggregateForDate 10).Runs (exec 0)
      ((Analytics.initial 0 weekLog fun _ => []).after (.arrive (viewOn "u" 10).toMovieEvent))
      (.ok ⟨10, 3, 9⟩) s₂ ∧ movieEventsMv (viewOn "u" 10).toMovieEvent ∈ weekLog ∧
    ¬ SameMetrics 10 s₁ s₂ := by
  obtain ⟨s₁, honce⟩ : ∃ s₁, (aggregateForDate 10).Runs (exec 0)
      (.initial 0 weekLog fun _ => []) (.ok ⟨10, 2, 9⟩) s₁ :=
    Program.exists_runs_of_alone .done (by decide +kernel)
  obtain ⟨s₂, htwice⟩ : ∃ s₂, (aggregateForDate 10).Runs (exec 0)
      ((Analytics.initial 0 weekLog fun _ => []).after (.arrive (viewOn "u" 10).toMovieEvent))
      (.ok ⟨10, 3, 9⟩) s₂ :=
    Program.exists_runs_of_alone .done (by decide +kernel)
  refine ⟨s₁, s₂, honce, htwice, by decide +kernel, ?_⟩
  intro hsame
  have htable := hsame.tables .dailyConversion
  rw [readFinal_of_rows ((aggregateForDate_runs honce).rows .dailyConversion),
    readFinal_of_rows ((aggregateForDate_runs htwice).rows .dailyConversion)] at htable
  exact absurd htable (by decide +kernel)

end SoaHomework.MovieAnalytics

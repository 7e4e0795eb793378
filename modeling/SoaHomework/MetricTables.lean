import Mathlib.Data.String.Basic
import SoaHomework.MovieEvents
import SoaHomework.ReplacingTable
import SoaHomework.SqlAggregates

/-!
# The metric tables

The seven tables of `01_init.sql` into which the aggregation writes, each with
the `SELECT` of `app/aggregation.py` that fills it for a date. Rates and averages
are exact fractions, and times are whole seconds.
-/

namespace SoaHomework.MovieAnalytics

open SqlAggregates

/-! ## Rows -/

structure DailyDau where
  metricDate : Date
  dau : Nat
  computedAt : Nat
deriving DecidableEq, Repr

structure DailyAvgWatchTime where
  metricDate : Date
  avgWatchSeconds : ℚ
  computedAt : Nat
deriving DecidableEq, Repr

structure DailyTopMovie where
  metricDate : Date
  movieId : String
  views : Nat
  rank : Nat
  computedAt : Nat
deriving DecidableEq, Repr

structure DailyConversion where
  metricDate : Date
  started : Nat
  finished : Nat
  conversionRate : ℚ
  computedAt : Nat
deriving DecidableEq, Repr

structure DailyRetention where
  metricDate : Date
  retentionD1 : ℚ
  retentionD7 : ℚ
  computedAt : Nat
deriving DecidableEq, Repr

structure DeviceEvents where
  metricDate : Date
  deviceType : DeviceType
  events : Nat
  computedAt : Nat
deriving DecidableEq, Repr

structure RetentionCohort where
  cohortDate : Date
  lifecycleDay : Nat
  users : Nat
  cohortSize : Nat
  retentionRate : ℚ
  computedAt : Nat
deriving DecidableEq, Repr

/-! ## Queries over one date -/

def onDate (log : EventLog) (date : Date) : EventLog :=
  log.filter fun row => decide (row.eventDate = date)

def countIf (eventType : EventType) (rows : List EventRow) : Nat :=
  rows.countP fun row => decide (row.eventType = eventType)

/-- `_rewrite_daily_dau` -/
def selectDau (log : EventLog) (date : Date) (computedAt : Nat) : List DailyDau :=
  [⟨date, uniqExact (·.userId) (onDate log date), computedAt⟩]

/-- `_rewrite_avg_watch_time`. The average over no rows is `NULL`, for which the
    column's default is inserted. -/
def selectAvgWatchTime (log : EventLog) (date : Date) (computedAt : Nat) :
    List DailyAvgWatchTime :=
  let finished := (onDate log date).filter fun row => decide (row.eventType = .viewFinished)
  [⟨date, (avg ((finished.filterMap (·.progressSeconds)).map fun seconds => (seconds : ℚ))).getD 0,
    computedAt⟩]

structure MovieViews where
  movieId : String
  views : Nat
deriving DecidableEq, Repr

/-- The movies that occur on the date, also those that nobody finished. -/
def movieViews (log : EventLog) (date : Date) : List MovieViews :=
  (groupBy (·.movieId) (onDate log date)).map fun group =>
    ⟨group.1, countIf .viewFinished group.2⟩

/-- `ORDER BY countIf(event_type = 'VIEW_FINISHED') DESC, movie_id` -/
def MovieViews.le (a b : MovieViews) : Prop :=
  b.views < a.views ∨ (b.views = a.views ∧ a.movieId ≤ b.movieId)

instance : DecidableRel MovieViews.le := fun a b => by
  unfold MovieViews.le
  infer_instance

def toUInt8 (n : Int) : Nat := (n % 256).toNat

/-- `_rewrite_top_movies` -/
def selectTopMovies (log : EventLog) (date : Date) (computedAt : Nat) : List DailyTopMovie :=
  (ranked MovieViews.le 10 (movieViews log date)).map fun entry =>
    ⟨date, entry.1.movieId, entry.1.views, toUInt8 entry.2, computedAt⟩

/-- `_rewrite_conversion` -/
def selectConversion (log : EventLog) (date : Date) (computedAt : Nat) : List DailyConversion :=
  let started := countIf .viewStarted (onDate log date)
  let finished := countIf .viewFinished (onDate log date)
  [⟨date, started, finished, if started = 0 then 0 else (finished : ℚ) / started, computedAt⟩]

/-- `_rewrite_device_distribution` -/
def selectDeviceDistribution (log : EventLog) (date : Date) (computedAt : Nat) :
    List DeviceEvents :=
  (groupBy (·.deviceType) (onDate log date)).map fun group =>
    ⟨date, group.1, group.2.length, computedAt⟩

/-! ## Retention -/

/-- `first_watch`: each user with the date of the first watch event -/
def firstWatch (log : EventLog) : List (String × Date) :=
  (groupBy (·.userId) (log.filter (·.eventType.isWatch))).map fun group =>
    (group.1, minimum (group.2.map fun row => toDate row.timestamp))

structure UserReturn where
  userId : String
  retainedD1 : Nat
  retainedD7 : Nat
deriving DecidableEq, Repr

/-- `e.event_date` after the left join. A row without a partner has the default
    of the column. -/
def joinedDate : Option EventRow → Date
  | some row => row.eventDate
  | none => 0

/-- `returns` -/
def userReturns (log : EventLog) (date : Date) : List UserReturn :=
  let users := ((firstWatch log).filter fun first => decide (first.2 = date)).map Prod.fst
  let joined := leftJoin (fun user row => decide (row.userId = user) && row.eventType.isWatch &&
    decide (row.eventDate = date + 1 ∨ row.eventDate = date + 7)) users log
  (groupBy Prod.fst joined).map fun group =>
    ⟨group.1, maxFlag (fun row => decide (joinedDate row.2 = date + 1)) group.2,
      maxFlag (fun row => decide (joinedDate row.2 = date + 7)) group.2⟩

/-- `_rewrite_retention` -/
def selectRetention (log : EventLog) (date : Date) (computedAt : Nat) : List DailyRetention :=
  let returns := userReturns log date
  let rate (retained : UserReturn → Nat) : ℚ :=
    if returns.length = 0 then 0
    else (avg (returns.map fun row => (retained row : ℚ))).getD 0
  [⟨date, rate (·.retainedD1), rate (·.retainedD7), computedAt⟩]

structure CohortUser where
  cohortDate : Date
  userId : String
  eventDate : Date
  lifecycleDay : Int
deriving DecidableEq, Repr

/-- `dateDiff('day', ...)` -/
def dateDiff (start finish : Date) : Int := (finish : Int) - start

/-- `cohort_users` -/
def cohortUsers (log : EventLog) (date : Date) : List CohortUser :=
  (innerJoin (fun (first : String × Date) (row : EventRow) =>
      decide (row.userId = first.1) && decide (first.2 = date) && row.eventType.isWatch)
    (firstWatch log) log).map fun pair =>
      ⟨pair.1.2, pair.1.1, pair.2.eventDate, dateDiff pair.1.2 pair.2.eventDate⟩

/-- `cohort_size` -/
def cohortSize (log : EventLog) (date : Date) : Nat :=
  uniqExact Prod.fst ((firstWatch log).filter fun first => decide (first.2 = date))

/-- `toUInt8(lifecycle_day) AS lifecycle_day`, to which the `WHERE` and the
    `GROUP BY` of the query refer -/
def CohortUser.day (user : CohortUser) : Nat := toUInt8 user.lifecycleDay

/-- `_rewrite_retention_cohorts` -/
def selectRetentionCohorts (log : EventLog) (date : Date) (computedAt : Nat) :
    List RetentionCohort :=
  let size := cohortSize log date
  ((groupBy CohortUser.day ((cohortUsers log date).filter fun user => decide (user.day ≤ 7))).map
    fun group =>
      let users := uniqExact (·.userId) group.2
      (⟨date, group.1, users, size, if size = 0 then 0 else (users : ℚ) / size, computedAt⟩ :
        RetentionCohort)).insertionSort fun a b => a.lifecycleDay ≤ b.lifecycleDay

/-! ## Tables -/

inductive MetricTable where
  | dailyDau
  | dailyAvgWatchTime
  | dailyTopMovies
  | dailyConversion
  | dailyRetention
  | deviceDistribution
  | retentionCohorts
deriving DecidableEq, Repr

@[reducible] def Row : MetricTable → Type
  | .dailyDau => DailyDau
  | .dailyAvgWatchTime => DailyAvgWatchTime
  | .dailyTopMovies => DailyTopMovie
  | .dailyConversion => DailyConversion
  | .dailyRetention => DailyRetention
  | .deviceDistribution => DeviceEvents
  | .retentionCohorts => RetentionCohort

/-- The column that the `DELETE` and the `SELECT` of a date compare. -/
def MetricTable.date : (table : MetricTable) → Row table → Date
  | .dailyDau, row => row.metricDate
  | .dailyAvgWatchTime, row => row.metricDate
  | .dailyTopMovies, row => row.metricDate
  | .dailyConversion, row => row.metricDate
  | .dailyRetention, row => row.metricDate
  | .deviceDistribution, row => row.metricDate
  | .retentionCohorts, row => row.cohortDate

def MetricTable.version : (table : MetricTable) → Row table → Nat
  | .dailyDau, row => row.computedAt
  | .dailyAvgWatchTime, row => row.computedAt
  | .dailyTopMovies, row => row.computedAt
  | .dailyConversion, row => row.computedAt
  | .dailyRetention, row => row.computedAt
  | .deviceDistribution, row => row.computedAt
  | .retentionCohorts, row => row.computedAt

/-- Equal values of the table's `ORDER BY` columns. -/
def MetricTable.sameKey : (table : MetricTable) → Row table → Row table → Bool
  | .dailyDau, a, b => decide (a.metricDate = b.metricDate)
  | .dailyAvgWatchTime, a, b => decide (a.metricDate = b.metricDate)
  | .dailyTopMovies, a, b => decide (a.metricDate = b.metricDate ∧ a.rank = b.rank ∧
      a.movieId = b.movieId)
  | .dailyConversion, a, b => decide (a.metricDate = b.metricDate)
  | .dailyRetention, a, b => decide (a.metricDate = b.metricDate)
  | .deviceDistribution, a, b => decide (a.metricDate = b.metricDate ∧
      a.deviceType = b.deviceType)
  | .retentionCohorts, a, b => decide (a.cohortDate = b.cohortDate ∧
      a.lifecycleDay = b.lifecycleDay)

/-- The rows that `INSERT INTO table SELECT ...` adds for a date. -/
def select : (table : MetricTable) → EventLog → Date → Nat → List (Row table)
  | .dailyDau => selectDau
  | .dailyAvgWatchTime => selectAvgWatchTime
  | .dailyTopMovies => selectTopMovies
  | .dailyConversion => selectConversion
  | .dailyRetention => selectRetention
  | .deviceDistribution => selectDeviceDistribution
  | .retentionCohorts => selectRetentionCohorts

/-! ## What the queries return -/

theorem mem_onDate {log : EventLog} {date : Date} {row : EventRow} :
    row ∈ onDate log date ↔ row ∈ log ∧ row.eventDate = date := by
  simp [onDate]

theorem MetricTable.date_of_sameKey {table : MetricTable} {a b : Row table}
    (h : MetricTable.sameKey table a b = true) :
    MetricTable.date table a = MetricTable.date table b := by
  cases table with
  | dailyDau => exact of_decide_eq_true h
  | dailyAvgWatchTime => exact of_decide_eq_true h
  | dailyTopMovies => exact (of_decide_eq_true h).1
  | dailyConversion => exact of_decide_eq_true h
  | dailyRetention => exact of_decide_eq_true h
  | deviceDistribution => exact (of_decide_eq_true h).1
  | retentionCohorts => exact (of_decide_eq_true h).1

/-- The sorting keys are compared for equality. -/
theorem MetricTable.sameKey_symm {table : MetricTable} (a b : Row table)
    (h : MetricTable.sameKey table a b = true) : MetricTable.sameKey table b a = true := by
  cases table with
  | dailyDau => exact decide_eq_true (of_decide_eq_true h).symm
  | dailyAvgWatchTime => exact decide_eq_true (of_decide_eq_true h).symm
  | dailyConversion => exact decide_eq_true (of_decide_eq_true h).symm
  | dailyRetention => exact decide_eq_true (of_decide_eq_true h).symm
  | dailyTopMovies =>
      obtain ⟨hdate, hrank, hmovie⟩ := of_decide_eq_true h
      exact decide_eq_true ⟨hdate.symm, hrank.symm, hmovie.symm⟩
  | deviceDistribution =>
      obtain ⟨hdate, hdevice⟩ := of_decide_eq_true h
      exact decide_eq_true ⟨hdate.symm, hdevice.symm⟩
  | retentionCohorts =>
      obtain ⟨hdate, hday⟩ := of_decide_eq_true h
      exact decide_eq_true ⟨hdate.symm, hday.symm⟩

theorem MetricTable.sameKey_trans {table : MetricTable} (a b c : Row table)
    (hab : MetricTable.sameKey table a b = true) (hbc : MetricTable.sameKey table b c = true) :
    MetricTable.sameKey table a c = true := by
  cases table with
  | dailyDau => exact decide_eq_true ((of_decide_eq_true hab).trans (of_decide_eq_true hbc))
  | dailyAvgWatchTime =>
      exact decide_eq_true ((of_decide_eq_true hab).trans (of_decide_eq_true hbc))
  | dailyConversion =>
      exact decide_eq_true ((of_decide_eq_true hab).trans (of_decide_eq_true hbc))
  | dailyRetention =>
      exact decide_eq_true ((of_decide_eq_true hab).trans (of_decide_eq_true hbc))
  | dailyTopMovies =>
      obtain ⟨hdate, hrank, hmovie⟩ := of_decide_eq_true hab
      obtain ⟨hdate', hrank', hmovie'⟩ := of_decide_eq_true hbc
      exact decide_eq_true ⟨hdate.trans hdate', hrank.trans hrank', hmovie.trans hmovie'⟩
  | deviceDistribution =>
      obtain ⟨hdate, hdevice⟩ := of_decide_eq_true hab
      obtain ⟨hdate', hdevice'⟩ := of_decide_eq_true hbc
      exact decide_eq_true ⟨hdate.trans hdate', hdevice.trans hdevice'⟩
  | retentionCohorts =>
      obtain ⟨hdate, hday⟩ := of_decide_eq_true hab
      obtain ⟨hdate', hday'⟩ := of_decide_eq_true hbc
      exact decide_eq_true ⟨hdate.trans hdate', hday.trans hday'⟩

/-- A query fills one date. -/
theorem select_date {table : MetricTable} {log : EventLog} {date : Date} {computedAt : Nat}
    {row : Row table} (h : row ∈ select table log date computedAt) :
    MetricTable.date table row = date := by
  cases table with
  | dailyDau => rw [List.mem_singleton.mp h]; rfl
  | dailyAvgWatchTime => rw [List.mem_singleton.mp h]; rfl
  | dailyConversion => rw [List.mem_singleton.mp h]; rfl
  | dailyRetention => rw [List.mem_singleton.mp h]; rfl
  | dailyTopMovies =>
      obtain ⟨entry, _, rfl⟩ := List.mem_map.mp h
      rfl
  | deviceDistribution =>
      obtain ⟨group, _, rfl⟩ := List.mem_map.mp h
      rfl
  | retentionCohorts =>
      obtain ⟨group, _, rfl⟩ := List.mem_map.mp ((List.mem_insertionSort _).mp h)
      rfl

theorem selectTopMovies_ranks (log : EventLog) (date : Date) (computedAt : Nat) :
    (selectTopMovies log date computedAt).map (·.rank) =
      (ranked MovieViews.le 10 (movieViews log date)).map Prod.snd := by
  rw [selectTopMovies, List.map_map]
  apply List.map_congr_left
  intro entry hentry
  obtain ⟨_, _, hle⟩ := mem_of_mem_ranked MovieViews.le hentry
  simp only [Function.comp, toUInt8]
  omega

/-- The rows of a query have different keys. -/
theorem select_pairwise (table : MetricTable) (log : EventLog) (date : Date) (computedAt : Nat) :
    (select table log date computedAt).Pairwise
      fun a b => MetricTable.sameKey table a b = false := by
  cases table with
  | dailyDau => exact List.pairwise_singleton _ _
  | dailyAvgWatchTime => exact List.pairwise_singleton _ _
  | dailyConversion => exact List.pairwise_singleton _ _
  | dailyRetention => exact List.pairwise_singleton _ _
  | dailyTopMovies =>
      have hnodup := ranked_nodup MovieViews.le 10 (movieViews log date)
      rw [← selectTopMovies_ranks log date computedAt] at hnodup
      refine (List.pairwise_map.mp hnodup).imp ?_
      intro a b hne
      simp only [MetricTable.sameKey, decide_eq_false_iff_not]
      exact fun h => hne h.2.1
  | deviceDistribution =>
      refine List.pairwise_map.mpr ?_
      have hnodup : ((groupBy (·.deviceType) (onDate log date)).map Prod.fst).Nodup :=
        groupBy_keys (·.deviceType) (onDate log date) ▸ List.nodup_dedup _
      refine (List.pairwise_map.mp hnodup).imp ?_
      intro a b hne
      simp only [MetricTable.sameKey, decide_eq_false_iff_not]
      exact fun h => hne h.2
  | retentionCohorts =>
      have hsymm : ∀ a b : RetentionCohort, MetricTable.sameKey .retentionCohorts a b = false →
          MetricTable.sameKey .retentionCohorts b a = false := by
        intro a b h
        rw [Bool.eq_false_iff] at h ⊢
        exact fun h' => h (@MetricTable.sameKey_symm .retentionCohorts b a h')
      refine (List.perm_insertionSort _ _).symm.pairwise ?_ (fun {a b} => hsymm a b)
      refine List.pairwise_map.mpr ?_
      have hnodup := groupBy_keys CohortUser.day
        ((cohortUsers log date).filter fun user => decide (user.day ≤ 7)) ▸ List.nodup_dedup _
      refine (List.pairwise_map.mp hnodup).imp ?_
      intro a b hne
      simp only [MetricTable.sameKey, decide_eq_false_iff_not]
      exact fun h => hne h.2

end SoaHomework.MovieAnalytics

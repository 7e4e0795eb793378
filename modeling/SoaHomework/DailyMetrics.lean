import SoaHomework.AggregatedTables

/-!
# The stored metrics of a date

`upsert_metrics` replaces the rows of the payload's keys and leaves the others.
The keys that aggregations store come from the events; only a movie can lose its
place in a payload, when ten others are ranked before it.
-/

namespace SoaHomework.MovieAnalytics

open SqlAggregates

variable {log log' : EventLog} {date : Date} {computedAt : Nat}

/-! ## Keys -/

/-- The key of a movie's row. -/
def movieKey (date : Date) (movie : String) : MetricKey :=
  ⟨date, .topMovieViews, "movie_id", movie⟩

/-- The key of a device's row. -/
def deviceKey (date : Date) (device : DeviceType) : MetricKey :=
  ⟨date, .deviceEvents, "device_type", device.value⟩

/-- The keys that an aggregation over some of the events of `log` may store. -/
inductive StoredBy (log : EventLog) : MetricKey → Prop where
  | plain (date : Date) {name : MetricName} (h : name ∈ plainNames) :
      StoredBy log ⟨date, name, "", ""⟩
  | movie {event : EventRow} (h : event ∈ log) :
      StoredBy log (movieKey event.eventDate event.movieId)
  | device {event : EventRow} (h : event ∈ log) :
      StoredBy log (deviceKey event.eventDate event.deviceType)

theorem StoredBy.mono (hsub : log ⊆ log') {key : MetricKey} (h : StoredBy log key) :
    StoredBy log' key := by
  cases h with
  | plain date h => exact .plain date h
  | movie h => exact .movie (hsub h)
  | device h => exact .device (hsub h)

/-! ## The ranking -/

/-- How often a movie was finished on the date. -/
def viewsOf (log : EventLog) (date : Date) (movie : String) : Nat :=
  countIf .viewFinished ((onDate log date).filter fun row => decide (row.movieId = movie))

/-- How many movies of the date are ranked before a movie: those finished more
    often, and those finished as often with a smaller id. -/
def ahead (log : EventLog) (date : Date) (movie : String) : Nat :=
  ((onDate log date).map (·.movieId)).dedup.countP fun other =>
    decide (viewsOf log date movie < viewsOf log date other ∨
      viewsOf log date other = viewsOf log date movie ∧ other < movie)

theorem movieViews_eq (log : EventLog) (date : Date) :
    movieViews log date = ((onDate log date).map (·.movieId)).dedup.map fun movie =>
      ⟨movie, viewsOf log date movie⟩ := by
  rw [movieViews, groupBy, List.map_map]
  rfl

theorem MovieViews.total (a b : MovieViews) : MovieViews.le a b ∨ MovieViews.le b a := by
  unfold MovieViews.le
  rcases Nat.lt_trichotomy a.views b.views with hlt | heq | hgt
  · exact Or.inr (Or.inl hlt)
  · rcases le_total a.movieId b.movieId with hle | hle
    · exact Or.inl (Or.inr ⟨heq.symm, hle⟩)
    · exact Or.inr (Or.inr ⟨heq, hle⟩)
  · exact Or.inl (Or.inl hgt)

theorem MovieViews.trans (a b c : MovieViews) (hab : MovieViews.le a b)
    (hbc : MovieViews.le b c) : MovieViews.le a c := by
  unfold MovieViews.le at hab hbc ⊢
  rcases hab with hab | ⟨hab, hab'⟩
  · rcases hbc with hbc | ⟨hbc, _⟩
    · exact Or.inl (Nat.lt_trans hbc hab)
    · exact Or.inl (hbc ▸ hab)
  · rcases hbc with hbc | ⟨hbc, hbc'⟩
    · exact Or.inl (hab ▸ hbc)
    · exact Or.inr ⟨hbc.trans hab, le_trans hab' hbc'⟩

theorem MovieViews.antisymm {a b : MovieViews} (hab : MovieViews.le a b)
    (hba : MovieViews.le b a) : a = b := by
  unfold MovieViews.le at hab hba
  have hviews : a.views = b.views := by omega
  have hid : a.movieId = b.movieId := by
    apply le_antisymm
    · exact (hab.resolve_left (by omega)).2
    · exact (hba.resolve_left (by omega)).2
  obtain ⟨movie, views⟩ := a
  exact MovieViews.mk.injEq .. ▸ ⟨hid, hviews⟩

theorem movieViews_nodup (log : EventLog) (date : Date) : (movieViews log date).Nodup := by
  have hids : ((movieViews log date).map (·.movieId)).Nodup := by
    rw [movieViews_eq, List.map_map, Function.comp_def, List.map_id']
    exact List.nodup_dedup _
  exact hids.of_map

theorem mem_movieViews {movie : String} :
    ⟨movie, viewsOf log date movie⟩ ∈ movieViews log date ↔
      ∃ event ∈ log, event.eventDate = date ∧ event.movieId = movie := by
  rw [movieViews_eq]
  simp only [List.mem_map, List.mem_dedup, MovieViews.mk.injEq, mem_onDate]
  constructor
  · rintro ⟨movie', ⟨event, ⟨hlog, hdate⟩, rfl⟩, rfl, _⟩
    exact ⟨event, hlog, hdate, rfl⟩
  · rintro ⟨event, hlog, hdate, rfl⟩
    exact ⟨event.movieId, ⟨event, ⟨hlog, hdate⟩, rfl⟩, rfl, rfl⟩

theorem countP_movieViews (log : EventLog) (date : Date) (movie : String) :
    (movieViews log date).countP
      (fun other => decide (¬ MovieViews.le ⟨movie, viewsOf log date movie⟩ other)) =
        ahead log date movie := by
  rw [movieViews_eq, List.countP_map, ahead]
  apply List.countP_congr
  intro other _
  simp only [Function.comp, MovieViews.le, decide_eq_true_eq, not_or, not_and, not_lt, not_le]
  constructor
  · rintro ⟨hle, hlt⟩
    rcases Nat.lt_or_eq_of_le hle with hviews | hviews
    · exact Or.inl hviews
    · exact Or.inr ⟨hviews.symm, hlt hviews.symm⟩
  · rintro (hviews | ⟨hviews, hlt⟩)
    · exact ⟨Nat.le_of_lt hviews, fun heq => absurd heq (Nat.ne_of_gt hviews)⟩
    · exact ⟨Nat.le_of_eq hviews.symm, fun _ => hlt⟩

/-- A movie is among the top ten when fewer than ten are ranked before it. -/
theorem exists_topMovie (log : EventLog) (date : Date) (computedAt : Nat) {movie : String} :
    (∃ row ∈ selectTopMovies log date computedAt, row.movieId = movie) ↔
      (∃ event ∈ log, event.eventDate = date ∧ event.movieId = movie) ∧
        ahead log date movie < 10 := by
  rw [← mem_movieViews, ← countP_movieViews,
    ← exists_mem_ranked MovieViews.le MovieViews.total MovieViews.trans
      (movieViews_nodup log date) fun _ _ _ _ => MovieViews.antisymm]
  simp only [selectTopMovies, List.mem_map]
  constructor
  · rintro ⟨_, ⟨⟨entry, place⟩, hentry, rfl⟩, rfl⟩
    have hrow := (mem_of_mem_ranked MovieViews.le hentry).1
    rw [movieViews_eq] at hrow
    obtain ⟨movie', _, rfl⟩ := List.mem_map.mp hrow
    exact ⟨place, hentry⟩
  · rintro ⟨place, hentry⟩
    exact ⟨_, ⟨(_, place), hentry, rfl⟩, rfl⟩

/-! ## Keys of a payload -/

section Keys

variable {logs : MetricTable → EventLog}

theorem mem_selectDeviceDistribution_type {device : DeviceType} :
    (∃ row ∈ selectDeviceDistribution log date computedAt, row.deviceType = device) ↔
      ∃ event ∈ log, event.eventDate = date ∧ event.deviceType = device := by
  simp only [selectDeviceDistribution, List.mem_map]
  constructor
  · rintro ⟨_, ⟨⟨device', members⟩, hmem, rfl⟩, rfl⟩
    obtain ⟨⟨event, hevent, htype⟩, _⟩ := mem_groupBy.mp hmem
    obtain ⟨hlog, hdate⟩ := mem_onDate.mp hevent
    exact ⟨event, hlog, hdate, htype⟩
  · rintro ⟨event, hlog, hdate, rfl⟩
    exact ⟨_, ⟨(event.deviceType, _), mem_groupBy.mpr ⟨⟨event, mem_onDate.mpr ⟨hlog, hdate⟩, rfl⟩,
      rfl⟩, rfl⟩, rfl⟩

theorem mem_payloadOf {metric : Metric} :
    metric ∈ payloadOf computedAt (selectedRows date computedAt logs) ↔
      metric ∈ plainMetrics date computedAt logs ∨
      (∃ row ∈ selectTopMovies (logs .dailyTopMovies) date computedAt,
        topMovieMetric computedAt row = metric) ∨
      ∃ row ∈ selectDeviceDistribution (logs .deviceDistribution) date computedAt,
        deviceMetric computedAt row = metric := by
  have hmovies := orderRows_perm .dailyTopMovies
    (select .dailyTopMovies (logs .dailyTopMovies) date computedAt)
  have hdevices := orderRows_perm .deviceDistribution
    (select .deviceDistribution (logs .deviceDistribution) date computedAt)
  rw [payloadOf_selected, List.mem_append, List.mem_append, List.mem_map, List.mem_map, or_assoc]
  simp only [selectedRows, hmovies.mem_iff, hdevices.mem_iff]
  rfl

theorem payload_plain {name : MetricName} (h : name ∈ plainNames) :
    ∃ metric ∈ payloadOf computedAt (selectedRows date computedAt logs),
      metric.key date = ⟨date, name, "", ""⟩ := by
  rw [← plainMetrics_names date computedAt logs] at h
  obtain ⟨metric, hmetric, rfl⟩ := List.mem_map.mp h
  obtain ⟨hkey, hvalue⟩ := plainMetrics_dimensions date computedAt logs hmetric
  refine ⟨metric, mem_payloadOf.mpr (Or.inl hmetric), ?_⟩
  rw [Metric.key, hkey, hvalue]

theorem payload_device {device : DeviceType}
    (h : ∃ event ∈ logs .deviceDistribution, event.eventDate = date ∧
      event.deviceType = device) :
    ∃ metric ∈ payloadOf computedAt (selectedRows date computedAt logs),
      metric.key date = deviceKey date device := by
  obtain ⟨row, hrow, rfl⟩ := mem_selectDeviceDistribution_type.mpr h
  exact ⟨_, mem_payloadOf.mpr (Or.inr (Or.inr ⟨row, hrow, rfl⟩)), rfl⟩

theorem payload_movie {movie : String} :
    (∃ metric ∈ payloadOf computedAt (selectedRows date computedAt logs),
      metric.key date = movieKey date movie) ↔
      (∃ event ∈ logs .dailyTopMovies, event.eventDate = date ∧ event.movieId = movie) ∧
        ahead (logs .dailyTopMovies) date movie < 10 := by
  rw [← exists_topMovie _ date computedAt]
  constructor
  · rintro ⟨metric, hmetric, hkey⟩
    rcases mem_payloadOf.mp hmetric with hplain | ⟨row, hrow, rfl⟩ | ⟨row, _, rfl⟩
    · have hdimension := (plainMetrics_dimensions date computedAt logs hplain).1
      have hmovie : metric.dimensionKey = "movie_id" := congrArg MetricKey.dimensionKey hkey
      rw [hdimension] at hmovie
      exact absurd hmovie (by decide)
    · exact ⟨row, hrow, congrArg MetricKey.dimensionValue hkey⟩
    · cases congrArg MetricKey.metricName hkey
  · rintro ⟨row, hrow, rfl⟩
    exact ⟨_, mem_payloadOf.mpr (Or.inr (Or.inl ⟨row, hrow, rfl⟩)), rfl⟩

/-- A payload stores keys that come from the events it was computed from. -/
theorem payload_storedBy (hsub : ∀ table, logs table ⊆ log) {metric : Metric}
    (h : metric ∈ payloadOf computedAt (selectedRows date computedAt logs)) :
    StoredBy log (metric.key date) := by
  rcases mem_payloadOf.mp h with hplain | ⟨row, hrow, rfl⟩ | ⟨row, hrow, rfl⟩
  · obtain ⟨hkey, hvalue⟩ := plainMetrics_dimensions date computedAt logs hplain
    rw [Metric.key, hkey, hvalue]
    refine .plain date ?_
    rw [← plainMetrics_names date computedAt logs]
    exact List.mem_map_of_mem hplain
  · obtain ⟨⟨event, hevent, hdate, hmovie⟩, _⟩ := (exists_topMovie _ _ _).mp ⟨row, hrow, rfl⟩
    subst hdate
    have hstored := StoredBy.movie (hsub _ hevent)
    rwa [hmovie] at hstored
  · obtain ⟨event, hevent, hdate, hdevice⟩ :=
      mem_selectDeviceDistribution_type.mp ⟨row, hrow, rfl⟩
    subst hdate
    have hstored := StoredBy.device (hsub _ hevent)
    rwa [hdevice] at hstored

/-- Of the keys that earlier aggregations of a date have stored, a payload has
    all but those of movies that ten others are ranked before. -/
theorem payload_covers {found : DailyMetrics}
    (hfound : ∀ key ∈ found, key.metricDate = date → ∀ table, StoredBy (logs table) key) :
    (∀ key ∈ found, key.metricDate = date →
      ∃ metric ∈ payloadOf computedAt (selectedRows date computedAt logs),
        metric.key date = key) ↔
      ∀ movie, movieKey date movie ∈ found → ahead (logs .dailyTopMovies) date movie < 10 := by
  constructor
  · intro h movie hmovie
    exact (payload_movie.mp (h _ hmovie rfl)).2
  · intro h key hkey hdate
    cases hfound key hkey hdate .dailyTopMovies with
    | plain date' hname =>
        obtain rfl : date' = date := hdate
        exact payload_plain hname
    | movie hevent =>
        rename_i event
        obtain rfl : event.eventDate = date := hdate
        exact payload_movie.mpr ⟨⟨event, hevent, rfl, rfl⟩, h _ hkey⟩
    | device hevent =>
        rename_i event
        obtain rfl : event.eventDate = date := hdate
        have hstored := hfound _ hkey rfl .deviceDistribution
        refine payload_device ?_
        generalize hkey' : deviceKey event.eventDate event.deviceType = key at hstored
        cases hstored with
        | plain date' hname =>
            cases congrArg MetricKey.metricName hkey'
            exact absurd hname (by decide)
        | movie _ => cases congrArg MetricKey.metricName hkey'
        | @device event' hevent' =>
            refine ⟨event', hevent', (congrArg MetricKey.metricDate hkey').symm, ?_⟩
            exact DeviceType.value_injective (congrArg MetricKey.dimensionValue hkey').symm

end Keys

/-! ## The rows of a date -/

/-- The rows of `daily_metrics` for a date, without the time of the upsert. -/
def storedMetrics (stored : DailyMetrics) (date : Date) : List Metric :=
  stored.entries.filterMap fun entry =>
    if entry.1.metricDate = date then
      some ⟨entry.1.metricName, entry.1.dimensionKey, entry.1.dimensionValue,
        entry.2.metricValue, entry.2.metadata⟩
    else none

/-- A line of the export that shows a metric of the date. -/
def ExportRow.Shows (line : ExportRow) (date : Date) (metric : Metric) : Prop :=
  line.metricDate = date ∧ line.metricName = metric.metricName.text ∧
    line.dimensionKey = metric.dimensionKey ∧ line.dimensionValue = metric.dimensionValue ∧
    line.metricValue = metric.metricValue ∧ line.metadata = some metric.metadata

/-- The rows for a date are exactly those of a payload. -/
structure MetricsFresh (stored : DailyMetrics) (date : Date) (payload : List Metric) : Prop where
  rows : (storedMetrics stored date).Perm payload
  topMovies : ((storedMetrics stored date).filter fun metric =>
    decide (metric.metricName = .topMovieViews)).length ≤ 10
  ranks : (((storedMetrics stored date).filter fun metric =>
    decide (metric.metricName = .topMovieViews)).map fun metric => metric.metadata.rank).Nodup
  exported : ∀ line ∈ exportFrame date (fetchMetricsForExport stored date),
    ∃ metric ∈ payload, line.Shows date metric

variable {stored : DailyMetrics}

theorem Metric.eq_of_key {metric other : Metric} (hkey : other.key date = metric.key date)
    (hvalue : other.metricValue = metric.metricValue)
    (hmetadata : other.metadata = metric.metadata) : other = metric := by
  cases metric
  cases other
  simp only [Metric.key, MetricKey.mk.injEq, true_and] at hkey
  simp only [Metric.mk.injEq]
  exact ⟨hkey.1, hkey.2.1, hkey.2.2, hvalue, hmetadata⟩

theorem mem_storedMetrics {metric : Metric} :
    metric ∈ storedMetrics stored date ↔ ∃ now, stored.lookup (metric.key date) =
      some ⟨metric.metricValue, now, metric.metadata⟩ := by
  simp only [storedMetrics, List.mem_filterMap]
  constructor
  · rintro ⟨⟨key, value⟩, hentry, hmetric⟩
    split at hmetric
    · rename_i hdate
      cases hmetric
      refine ⟨value.computedAt, AList.mem_lookup_iff.mpr ?_⟩
      obtain ⟨date', name, dimension, text⟩ := key
      obtain rfl : date' = date := hdate
      exact hentry
    · cases hmetric
  · rintro ⟨now, hlookup⟩
    refine ⟨⟨metric.key date, _⟩, AList.mem_lookup_iff.mp hlookup, ?_⟩
    exact if_pos rfl

theorem storedMetrics_nodup (stored : DailyMetrics) (date : Date) :
    (storedMetrics stored date).Nodup := by
  have hentries : stored.entries.Pairwise fun a b => a.1 ≠ b.1 := List.pairwise_map.mp
    stored.nodupKeys
  refine List.Pairwise.filterMap _ ?_ hentries
  rintro ⟨key, value⟩ ⟨key', value'⟩ hne metric hmetric metric' hmetric' rfl
  obtain ⟨date₁, name₁, dimension₁, text₁⟩ := key
  obtain ⟨date₂, name₂, dimension₂, text₂⟩ := key'
  simp only [Option.ite_none_right_eq_some, Option.some.injEq] at hmetric hmetric'
  obtain ⟨rfl, rfl⟩ := hmetric
  obtain ⟨rfl, heq⟩ := hmetric'
  simp only [Metric.mk.injEq] at heq
  obtain ⟨rfl, rfl, rfl, _⟩ := heq
  exact hne rfl

theorem exportFrame_shows {line : ExportRow} (hne : storedMetrics stored date ≠ [])
    (h : line ∈ exportFrame date (fetchMetricsForExport stored date)) :
    ∃ metric ∈ storedMetrics stored date, line.Shows date metric := by
  have hperm := List.perm_insertionSort ExportRow.le (stored.entries.filterMap fun entry =>
    if entry.1.metricDate = date then some (exportRow entry.1 entry.2) else none)
  have hlines : fetchMetricsForExport stored date ≠ [] := by
    obtain ⟨metric, hmetric⟩ := List.exists_mem_of_ne_nil _ hne
    obtain ⟨now, hlookup⟩ := mem_storedMetrics.mp hmetric
    refine List.ne_nil_of_mem (hperm.mem_iff.mpr (List.mem_filterMap.mpr
      ⟨⟨metric.key date, _⟩, AList.mem_lookup_iff.mp hlookup, if_pos rfl⟩))
  rw [exportFrame, if_neg hlines, fetchMetricsForExport, hperm.mem_iff, List.mem_filterMap] at h
  obtain ⟨⟨key, value⟩, hentry, hline⟩ := h
  split at hline
  · rename_i hdate
    cases hline
    refine ⟨_, List.mem_filterMap.mpr ⟨_, hentry, if_pos hdate⟩, ?_⟩
    exact ⟨hdate, rfl, rfl, rfl, rfl, rfl⟩
  · cases hline

/-! ## After an upsert -/

section Fresh

variable {logs : MetricTable → EventLog}

theorem payload_topMovies :
    ((payloadOf computedAt (selectedRows date computedAt logs)).filter fun metric =>
      decide (metric.metricName = .topMovieViews)) =
        (selectedRows date computedAt logs .dailyTopMovies).map (topMovieMetric computedAt) := by
  have hplain : ((plainMetrics date computedAt logs).filter fun metric =>
      decide (metric.metricName = .topMovieViews)) = [] := rfl
  have hdevices : (((selectedRows date computedAt logs .deviceDistribution).map
      (deviceMetric computedAt)).filter fun metric =>
        decide (metric.metricName = .topMovieViews)) = [] := by
    rw [List.filter_eq_nil_iff]
    intro metric hmetric
    obtain ⟨row, _, rfl⟩ := List.mem_map.mp hmetric
    exact Bool.false_ne_true
  have hmovies : (((selectedRows date computedAt logs .dailyTopMovies).map
      (topMovieMetric computedAt)).filter fun metric =>
        decide (metric.metricName = .topMovieViews)) =
          (selectedRows date computedAt logs .dailyTopMovies).map (topMovieMetric computedAt) := by
    rw [List.filter_eq_self]
    intro metric hmetric
    obtain ⟨row, _, rfl⟩ := List.mem_map.mp hmetric
    rfl
  rw [payloadOf_selected, List.filter_append, List.filter_append, hplain, hdevices, hmovies,
    List.nil_append, List.append_nil]

theorem selectTopMovies_length (log : EventLog) :
    (selectTopMovies log date computedAt).length ≤ 10 := by
  rw [selectTopMovies, List.length_map]
  exact ranked_length MovieViews.le 10 _

theorem payload_ranks :
    (((payloadOf computedAt (selectedRows date computedAt logs)).filter fun metric =>
      decide (metric.metricName = .topMovieViews)).map
        fun metric => metric.metadata.rank).Nodup := by
  have hnodup := ranked_nodup MovieViews.le 10 (movieViews (logs .dailyTopMovies) date)
  rw [← selectTopMovies_ranks (logs .dailyTopMovies) date computedAt] at hnodup
  have hordered := ((orderRows_perm .dailyTopMovies _).map (·.rank)).nodup_iff.mpr hnodup
  rw [payload_topMovies, List.map_map]
  have hsome := hordered.map (Option.some_injective Nat)
  rwa [List.map_map] at hsome

/-- After an upsert, the rows of the date are those of the payload exactly when
    the payload has all keys of the date that were stored before. -/
theorem metricsFresh_iff {found : DailyMetrics}
    (hpayload : ∀ metric ∈ payloadOf computedAt (selectedRows date computedAt logs),
      ∃ now, stored.lookup (metric.key date) = some ⟨metric.metricValue, now, metric.metadata⟩)
    (hothers : ∀ key : MetricKey, key.metricDate = date →
      (∀ metric ∈ payloadOf computedAt (selectedRows date computedAt logs),
        metric.key date ≠ key) → stored.lookup key = found.lookup key) :
    MetricsFresh stored date (payloadOf computedAt (selectedRows date computedAt logs)) ↔
      ∀ key ∈ found, key.metricDate = date →
        ∃ metric ∈ payloadOf computedAt (selectedRows date computedAt logs),
          metric.key date = key := by
  have hnodup : (payloadOf computedAt (selectedRows date computedAt logs)).Nodup :=
    (payload_keys_nodup date computedAt logs).of_map
  constructor
  · intro h key hkey hdate
    by_contra hnone
    push Not at hnone
    obtain ⟨value, hvalue⟩ := Option.isSome_iff_exists.mp (AList.lookup_isSome.mpr hkey)
    have hstored := (hothers key hdate hnone).trans hvalue
    obtain ⟨date', name, dimension, text⟩ := key
    obtain rfl : date' = date := hdate
    have hmem : (⟨name, dimension, text, value.metricValue, value.metadata⟩ : Metric) ∈
        storedMetrics stored date' := mem_storedMetrics.mpr ⟨value.computedAt, hstored⟩
    exact hnone _ (h.rows.mem_iff.mp hmem) rfl
  · intro h
    have hrows : (storedMetrics stored date).Perm
        (payloadOf computedAt (selectedRows date computedAt logs)) := by
      refine (List.perm_ext_iff_of_nodup (storedMetrics_nodup stored date) hnodup).mpr ?_
      intro metric
      rw [mem_storedMetrics]
      constructor
      · rintro ⟨now, hlookup⟩
        by_cases hin : ∃ other ∈ payloadOf computedAt (selectedRows date computedAt logs),
            other.key date = metric.key date
        · obtain ⟨other, hother, hkey⟩ := hin
          obtain ⟨now', hlookup'⟩ := hpayload other hother
          rw [hkey, hlookup, Option.some.injEq, StoredMetric.mk.injEq] at hlookup'
          exact Metric.eq_of_key hkey hlookup'.1.symm hlookup'.2.2.symm ▸ hother
        · push Not at hin
          have hfound := (hothers _ rfl hin).symm.trans hlookup
          obtain ⟨other, hother, hkey⟩ := h (metric.key date)
            (AList.lookup_isSome.mp (hfound ▸ rfl)) rfl
          exact absurd hkey (hin other hother)
      · exact hpayload metric
    have htop := hrows.filter fun metric => decide (metric.metricName = .topMovieViews)
    refine ⟨hrows, ?_, ?_, ?_⟩
    · rw [htop.length_eq, payload_topMovies, List.length_map]
      exact le_of_eq_of_le (orderRows_perm .dailyTopMovies _).length_eq
        (selectTopMovies_length (logs .dailyTopMovies))
    · exact (htop.map _).nodup_iff.mpr payload_ranks
    · intro line hline
      have hne : storedMetrics stored date ≠ [] := by
        intro hempty
        rw [hempty] at hrows
        exact payloadOf_ne_nil logs hrows.nil_eq.symm
      obtain ⟨metric, hmetric, hshows⟩ := exportFrame_shows hne hline
      exact ⟨metric, hrows.mem_iff.mp hmetric, hshows⟩

end Fresh

end SoaHomework.MovieAnalytics

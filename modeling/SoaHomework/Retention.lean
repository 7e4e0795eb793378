import SoaHomework.AggregatedTables

/-!
# The two retention computations

`daily_retention` is computed with a left join and a flag for each user,
`retention_cohorts` with an inner join grouped by the day difference. Both start
from the same cohort. They differ on users who come back 256 days later or more,
whose day difference does not fit into the column.
-/

namespace SoaHomework.MovieAnalytics

open StatementProgram SqlAggregates

variable {log : EventLog} {date : Date} {computedAt : Nat}

/-! ## The cohort -/

theorem mem_firstWatch {user : String} {day : Date} :
    (user, day) ∈ firstWatch log ↔ FirstSeen log day user := by
  have hgroup : ∀ members, (user, members) ∈ groupBy (·.userId) (log.filter (·.eventType.isWatch)) →
      (minimum (members.map fun row => toDate row.timestamp) = day ↔ FirstSeen log day user) := by
    intro members hmem
    obtain ⟨⟨first, hfirst, hfirstUser⟩, hmembers⟩ := mem_groupBy.mp hmem
    have hrow : ∀ row, row ∈ members ↔
        row ∈ log ∧ row.eventType.isWatch = true ∧ row.userId = user := by
      intro row
      rw [hmembers, List.mem_filter, List.mem_filter, decide_eq_true_eq, and_assoc]
    have hne : (members.map fun row => toDate row.timestamp) ≠ [] := by
      refine List.ne_nil_of_mem (List.mem_map_of_mem ((hrow first).mpr ?_))
      exact ⟨(List.mem_filter.mp hfirst).1, (List.mem_filter.mp hfirst).2, hfirstUser⟩
    rw [minimum_eq_iff hne]
    simp only [List.mem_map, EventRow.toDate_timestamp, hrow, FirstSeen, Watched]
    constructor
    · rintro ⟨⟨row, ⟨hlog, hwatch, huser⟩, hday⟩, hleast⟩
      refine ⟨⟨row, hlog, hwatch, huser, hday⟩, ?_⟩
      intro row' hlog' hwatch' huser'
      exact hleast _ ⟨row', ⟨hlog', hwatch', huser'⟩, rfl⟩
    · rintro ⟨⟨row, hlog, hwatch, huser, hday⟩, hleast⟩
      refine ⟨⟨row, ⟨hlog, hwatch, huser⟩, hday⟩, ?_⟩
      rintro _ ⟨row', ⟨hlog', hwatch', huser'⟩, rfl⟩
      exact hleast row' hlog' hwatch' huser'
  simp only [firstWatch, List.mem_map, Prod.mk.injEq]
  constructor
  · rintro ⟨⟨user', members⟩, hmem, rfl, hday⟩
    exact (hgroup members hmem).mp hday
  · intro h
    obtain ⟨row, hlog, hwatch, huser, _⟩ := h.1
    have hmem : (user, (log.filter (·.eventType.isWatch)).filter fun row =>
        decide (row.userId = user)) ∈ groupBy (·.userId) (log.filter (·.eventType.isWatch)) :=
      mem_groupBy.mpr ⟨⟨row, List.mem_filter.mpr ⟨hlog, hwatch⟩, huser⟩, rfl⟩
    exact ⟨_, hmem, rfl, (hgroup _ hmem).mpr h⟩

/-- The users of `cohort` in the order of the query. -/
def cohortUserIds (log : EventLog) (date : Date) : List String :=
  ((firstWatch log).filter fun first => decide (first.2 = date)).map Prod.fst

theorem mem_cohortUserIds {user : String} :
    user ∈ cohortUserIds log date ↔ user ∈ cohort log date := by
  simp only [cohortUserIds, List.mem_map, List.mem_filter, decide_eq_true_eq, mem_cohort]
  constructor
  · rintro ⟨⟨user', day⟩, ⟨hmem, rfl⟩, rfl⟩
    exact mem_firstWatch.mp hmem
  · intro h
    exact ⟨(user, date), ⟨mem_firstWatch.mpr h, rfl⟩, rfl⟩

theorem cohortSize_eq (log : EventLog) (date : Date) :
    cohortSize log date = (cohort log date).card := by
  rw [cohortSize, uniqExact_eq_card]
  congr 1
  ext user
  rw [List.mem_toFinset]
  exact mem_cohortUserIds

/-! ## `daily_retention` -/

/-- The rows of the left join, of which `userReturns` makes groups. -/
def joinedReturns (log : EventLog) (date : Date) : List (String × Option EventRow) :=
  leftJoin (fun user row => decide (row.userId = user) && row.eventType.isWatch &&
    decide (row.eventDate = date + 1 ∨ row.eventDate = date + 7)) (cohortUserIds log date) log

theorem userReturns_eq (log : EventLog) (date : Date) :
    userReturns log date = (groupBy Prod.fst (joinedReturns log date)).map fun group =>
      ⟨group.1, maxFlag (fun row => decide (joinedDate row.2 = date + 1)) group.2,
        maxFlag (fun row => decide (joinedDate row.2 = date + 7)) group.2⟩ := rfl

theorem joinedReturns_user {user : String} :
    (∃ row ∈ joinedReturns log date, row.1 = user) ↔ user ∈ cohort log date :=
  exists_mem_leftJoin.trans mem_cohortUserIds

/-- A partner on one of the two days exists for the users who watched on it. -/
theorem maxFlag_joinedReturns {user : String} {later : Date} (huser : user ∈ cohort log date)
    (hlater : later = date + 1 ∨ later = date + 7) :
    maxFlag (fun row => decide (joinedDate row.2 = later))
      ((joinedReturns log date).filter fun row => decide (row.1 = user)) =
        if Watched log user later then 1 else 0 := by
  have hiff : ((joinedReturns log date).filter fun row => decide (row.1 = user)).any
      (fun row => decide (joinedDate row.2 = later)) = true ↔ Watched log user later := by
    simp only [List.any_eq_true, decide_eq_true_eq]
    constructor
    · rintro ⟨⟨user', partner⟩, hmem, hdate⟩
      obtain ⟨hjoin, huser'⟩ := List.mem_filter.mp hmem
      cases partner with
      | none =>
          -- the default date is before any later day
          have hzero : 0 = later := hdate
          rcases hlater with rfl | rfl
          · exact absurd hzero.symm (Nat.succ_ne_zero _)
          · exact absurd hzero.symm (Nat.succ_ne_zero _)
      | some event =>
          obtain ⟨_, hlog, hon⟩ := mem_leftJoin_some.mp hjoin
          simp only [Bool.and_eq_true, decide_eq_true_eq] at hon
          exact ⟨event, hlog, hon.1.2, hon.1.1.trans (of_decide_eq_true huser'), hdate⟩
    · rintro ⟨event, hlog, hwatch, huser', hdate⟩
      refine ⟨(user, some event), List.mem_filter.mpr ⟨?_, by simp⟩, hdate⟩
      refine mem_leftJoin_some.mpr ⟨mem_cohortUserIds.mpr huser, hlog, ?_⟩
      simp only [Bool.and_eq_true, decide_eq_true_eq]
      exact ⟨⟨huser', hwatch⟩, hdate ▸ hlater⟩
  rw [maxFlag_eq]
  simp only [hiff]

theorem mem_userReturns {row : UserReturn} :
    row ∈ userReturns log date ↔ row.userId ∈ cohort log date ∧
      row.retainedD1 = (if Watched log row.userId (date + 1) then 1 else 0) ∧
      row.retainedD7 = (if Watched log row.userId (date + 7) then 1 else 0) := by
  obtain ⟨user, d1, d7⟩ := row
  rw [userReturns_eq, List.mem_map]
  constructor
  · rintro ⟨⟨user', members⟩, hmem, heq⟩
    obtain ⟨hkey, rfl⟩ := mem_groupBy.mp hmem
    have huser := joinedReturns_user.mp hkey
    obtain ⟨rfl, rfl, rfl⟩ := UserReturn.mk.inj heq
    exact ⟨huser, maxFlag_joinedReturns huser (Or.inl rfl),
      maxFlag_joinedReturns huser (Or.inr rfl)⟩
  · rintro ⟨huser, h1, h7⟩
    refine ⟨(user, _), mem_groupBy.mpr ⟨joinedReturns_user.mpr huser, rfl⟩, ?_⟩
    simp only at huser h1 h7
    rw [maxFlag_joinedReturns huser (Or.inl rfl), maxFlag_joinedReturns huser (Or.inr rfl), h1, h7]

theorem userReturns_nodup (log : EventLog) (date : Date) :
    ((userReturns log date).map (·.userId)).Nodup := by
  simp only [userReturns, List.map_map, Function.comp_def]
  rw [groupBy_keys]
  exact List.nodup_dedup _

/-- The share of the cohort that watched a number of days later. -/
def returnRate (log : EventLog) (date : Date) (days : Nat) : ℚ :=
  (returned log date days).card / (cohort log date).card

theorem avg_userReturns (log : EventLog) (date : Date) (retained : UserReturn → Nat) (days : Nat)
    (h : ∀ row ∈ userReturns log date,
      retained row = if Watched log row.userId (date + days) then 1 else 0) :
    (if (userReturns log date).length = 0 then (0 : ℚ)
      else (avg ((userReturns log date).map fun row => (retained row : ℚ))).getD 0) =
        returnRate log date days := by
  have hflags : ((userReturns log date).map fun row => (retained row : ℚ)) =
      (userReturns log date).map fun row =>
        if decide (Watched log row.userId (date + days)) then (1 : ℚ) else 0 := by
    apply List.map_congr_left
    intro row hrow
    rw [h row hrow]
    by_cases hw : Watched log row.userId (date + days)
    · simp [hw]
    · simp [hw]
  have husers : ((userReturns log date).map (·.userId)).toFinset = cohort log date := by
    ext user
    simp only [List.mem_toFinset, List.mem_map]
    constructor
    · rintro ⟨row, hrow, rfl⟩
      exact (mem_userReturns.mp hrow).1
    · intro huser
      exact ⟨⟨user, if Watched log user (date + 1) then 1 else 0,
        if Watched log user (date + 7) then 1 else 0⟩, mem_userReturns.mpr ⟨huser, rfl, rfl⟩, rfl⟩
  have hlength : (userReturns log date).length = (cohort log date).card := by
    rw [← husers, List.toFinset_card_of_nodup (userReturns_nodup log date), List.length_map]
  have hcount : (userReturns log date).countP
      (fun row => decide (Watched log row.userId (date + days))) =
        (returned log date days).card := by
    have hmap : (userReturns log date).countP
        (fun row => decide (Watched log row.userId (date + days))) =
          ((userReturns log date).map (·.userId)).countP
            fun user => decide (Watched log user (date + days)) := by
      rw [List.countP_map]
      rfl
    rw [hmap, List.countP_eq_length_filter, ← List.toFinset_card_of_nodup
      ((userReturns_nodup log date).filter _), List.toFinset_filter, husers]
    simp only [returned, decide_eq_true_eq]
  rw [hflags]
  split
  · rename_i hzero
    rw [returnRate, ← hlength, hzero]
    simp
  · rw [avg_flags, hcount, hlength]
    rfl

theorem selectRetention_eq (log : EventLog) (date : Date) (computedAt : Nat) :
    selectRetention log date computedAt =
      [⟨date, returnRate log date 1, returnRate log date 7, computedAt⟩] := by
  have h1 := avg_userReturns log date (·.retainedD1) 1
    fun row hrow => (mem_userReturns.mp hrow).2.1
  have h7 := avg_userReturns log date (·.retainedD7) 7
    fun row hrow => (mem_userReturns.mp hrow).2.2
  simp only [selectRetention, h1, h7]

/-! ## `retention_cohorts` -/

/-- The users that the row of a lifecycle day counts: those of the cohort with a
    watch event whose day difference is narrowed to that day. -/
def counted (log : EventLog) (date : Date) (day : Nat) : Finset String :=
  (cohort log date).filter fun user => ∃ row ∈ log, row.eventType.isWatch = true ∧
    row.userId = user ∧ toUInt8 (dateDiff date row.eventDate) = day

theorem mem_counted {day : Nat} {user : String} :
    user ∈ counted log date day ↔ FirstSeen log date user ∧
      ∃ row ∈ log, row.eventType.isWatch = true ∧ row.userId = user ∧
        toUInt8 (dateDiff date row.eventDate) = day := by
  rw [counted, Finset.mem_filter, mem_cohort]

theorem mem_cohortUsers {user : CohortUser} :
    user ∈ cohortUsers log date ↔ ∃ row ∈ log, row.eventType.isWatch = true ∧
      FirstSeen log date row.userId ∧
      user = ⟨date, row.userId, row.eventDate, dateDiff date row.eventDate⟩ := by
  simp only [cohortUsers, List.mem_map]
  constructor
  · rintro ⟨⟨⟨userId, day⟩, row⟩, hjoin, rfl⟩
    obtain ⟨hfirst, hlog, hon⟩ := mem_innerJoin.mp hjoin
    simp only [Bool.and_eq_true, decide_eq_true_eq] at hon
    obtain ⟨⟨rfl, rfl⟩, hwatch⟩ := hon
    exact ⟨row, hlog, hwatch, mem_firstWatch.mp hfirst, rfl⟩
  · rintro ⟨row, hlog, hwatch, hseen, rfl⟩
    refine ⟨((row.userId, date), row), mem_innerJoin.mpr ⟨mem_firstWatch.mpr hseen, hlog, ?_⟩, rfl⟩
    simp [hwatch]

def cohortRow (log : EventLog) (date : Date) (computedAt day : Nat) : RetentionCohort :=
  ⟨date, day, (counted log date day).card, (cohort log date).card,
    if (cohort log date).card = 0 then 0
    else ((counted log date day).card : ℚ) / (cohort log date).card, computedAt⟩

theorem mem_selectRetentionCohorts {row : RetentionCohort} :
    row ∈ selectRetentionCohorts log date computedAt ↔
      ∃ day ≤ 7, (counted log date day).Nonempty ∧ row = cohortRow log date computedAt day := by
  have hdays : ∀ day, (∃ user ∈ (cohortUsers log date).filter fun user => decide (user.day ≤ 7),
      user.day = day) ↔ day ≤ 7 ∧ (counted log date day).Nonempty := by
    intro day
    constructor
    · rintro ⟨user, hmem, rfl⟩
      obtain ⟨huser, hle⟩ := List.mem_filter.mp hmem
      obtain ⟨row, hlog, hwatch, hseen, rfl⟩ := mem_cohortUsers.mp huser
      exact ⟨of_decide_eq_true hle, row.userId,
        mem_counted.mpr ⟨hseen, row, hlog, hwatch, rfl, rfl⟩⟩
    · rintro ⟨hle, user, huser⟩
      obtain ⟨hseen, row, hlog, hwatch, rfl, hday⟩ := mem_counted.mp huser
      refine ⟨_, List.mem_filter.mpr
        ⟨mem_cohortUsers.mpr ⟨row, hlog, hwatch, hseen, rfl⟩, ?_⟩, hday⟩
      simp only [CohortUser.day, hday, hle, decide_true]
  have hcount : ∀ day ≤ 7, uniqExact (·.userId)
      (((cohortUsers log date).filter fun user => decide (user.day ≤ 7)).filter
        fun user => decide (user.day = day)) = (counted log date day).card := by
    intro day hle
    rw [uniqExact_eq_card]
    congr 1
    ext user
    simp only [List.mem_toFinset, List.mem_map, List.mem_filter, decide_eq_true_eq, mem_counted]
    constructor
    · rintro ⟨counted, ⟨⟨hmem, _⟩, rfl⟩, rfl⟩
      obtain ⟨row, hlog, hwatch, hseen, rfl⟩ := mem_cohortUsers.mp hmem
      exact ⟨hseen, row, hlog, hwatch, rfl, rfl⟩
    · rintro ⟨hseen, row, hlog, hwatch, rfl, hday⟩
      exact ⟨_, ⟨⟨mem_cohortUsers.mpr ⟨row, hlog, hwatch, hseen, rfl⟩, le_of_eq_of_le hday hle⟩,
        hday⟩, rfl⟩
  simp only [selectRetentionCohorts, List.mem_insertionSort, List.mem_map, cohortSize_eq]
  constructor
  · rintro ⟨⟨day, members⟩, hmem, rfl⟩
    obtain ⟨hkey, rfl⟩ := mem_groupBy.mp hmem
    obtain ⟨hle, hnonempty⟩ := (hdays day).mp hkey
    refine ⟨day, hle, hnonempty, ?_⟩
    simp only [cohortRow, hcount day hle]
  · rintro ⟨day, hle, hnonempty, rfl⟩
    refine ⟨(day, _), mem_groupBy.mpr ⟨(hdays day).mpr ⟨hle, hnonempty⟩, rfl⟩, ?_⟩
    simp only [cohortRow, hcount day hle]

/-- The query returns one row for each lifecycle day that somebody is counted
    for, in order. -/
theorem selectRetentionCohorts_eq (log : EventLog) (date : Date) (computedAt : Nat) :
    selectRetentionCohorts log date computedAt =
      ((List.range 8).filter fun day => decide (counted log date day).Nonempty).map
        (cohortRow log date computedAt) := by
  have hmem : ∀ row, row ∈ selectRetentionCohorts log date computedAt ↔
      row ∈ ((List.range 8).filter fun day => decide (counted log date day).Nonempty).map
        (cohortRow log date computedAt) := by
    intro row
    rw [mem_selectRetentionCohorts]
    simp only [List.mem_map, List.mem_filter, List.mem_range, decide_eq_true_eq]
    constructor
    · rintro ⟨day, hle, hnonempty, rfl⟩
      exact ⟨day, ⟨Nat.lt_succ_of_le hle, hnonempty⟩, rfl⟩
    · rintro ⟨day, ⟨hlt, hnonempty⟩, rfl⟩
      exact ⟨day, Nat.le_of_lt_succ hlt, hnonempty, rfl⟩
  have hnodup : (selectRetentionCohorts log date computedAt).Nodup := by
    refine (select_pairwise .retentionCohorts log date computedAt).imp ?_
    rintro a _ hne rfl
    simp [MetricTable.sameKey] at hne
  have hsorted : (((List.range 8).filter fun day => decide (counted log date day).Nonempty).map
      (cohortRow log date computedAt)).Pairwise fun a b => a.lifecycleDay < b.lifecycleDay := by
    refine List.pairwise_map.mpr ?_
    exact List.pairwise_lt_range.sublist List.filter_sublist
  have hnodup' := hsorted.imp (S := (· ≠ ·)) fun hlt heq => by
    subst heq
    exact Nat.lt_irrefl _ hlt
  have hsorted' : (((List.range 8).filter fun day => decide (counted log date day).Nonempty).map
      (cohortRow log date computedAt)).Pairwise fun a b => a.lifecycleDay ≤ b.lifecycleDay :=
    hsorted.imp Nat.le_of_lt
  refine List.Perm.eq_of_pairwise ?_ ?_ hsorted'
    ((List.perm_ext_iff_of_nodup hnodup hnodup').mpr hmem)
  · intro a b ha hb hab hba
    obtain ⟨day, _, _, rfl⟩ := mem_selectRetentionCohorts.mp ha
    obtain ⟨day', _, _, rfl⟩ := mem_selectRetentionCohorts.mp ((hmem b).mpr hb)
    rw [show day = day' from Nat.le_antisymm hab hba]
  · have : Std.Total fun a b : RetentionCohort => a.lifecycleDay ≤ b.lifecycleDay :=
      ⟨fun a b => Nat.le_total _ _⟩
    have : IsTrans RetentionCohort fun a b => a.lifecycleDay ≤ b.lifecycleDay :=
      ⟨fun a b c => Nat.le_trans⟩
    exact List.pairwise_insertionSort _ _

/-! ## Agreement -/

/-- The rate that the row of a lifecycle day shows, 0 when there is no row. -/
def shownRate (rows : List RetentionCohort) (day : Nat) : ℚ :=
  match rows.find? fun row => decide (row.lifecycleDay = day) with
  | some row => (row.users : ℚ) / row.cohortSize
  | none => 0

/-- The rows of the two tables for a date agree with the events and with each
    other. -/
structure RetentionAgrees (log : EventLog) (date : Date) (cohorts : List RetentionCohort)
    (retention : List DailyRetention) : Prop where
  rows : ∀ day ≤ 7, (∃ row ∈ cohorts, row.lifecycleDay = day) ↔
    ∃ user, FirstSeen log date user ∧ Watched log user (date + day)
  users : ∀ row ∈ cohorts, row.lifecycleDay ≤ 7 ∧
    row.users = (returned log date row.lifecycleDay).card ∧ row.users ≤ row.cohortSize
  firstDay : ∀ row ∈ cohorts, row.lifecycleDay = 0 → row.users = row.cohortSize
  rates : ∃ row, retention = [row] ∧ row.retentionD1 = shownRate cohorts 1 ∧
    row.retentionD7 = shownRate cohorts 7

/-- Every watch event of a user of the cohort whose day difference is narrowed to
    a day of the first week is matched by one on that day. -/
def NoWrappedReturn (log : EventLog) (date : Date) : Prop :=
  ∀ row ∈ log, row.eventType.isWatch = true → FirstSeen log date row.userId →
    (row.eventDate - date) % 256 ≤ 7 →
    Watched log row.userId (date + (row.eventDate - date) % 256)

instance (log : EventLog) (date : Date) : Decidable (NoWrappedReturn log date) :=
  inferInstanceAs (Decidable (∀ row ∈ log, _))

theorem toUInt8_dateDiff {first later : Date} (h : first ≤ later) :
    toUInt8 (dateDiff first later) = (later - first) % 256 := by
  rw [toUInt8, dateDiff, ← Int.ofNat_sub h]
  rfl

/-- Who has come back on a day of the first week is counted for it. -/
theorem returned_subset_counted {day : Nat} (hday : day ≤ 7) :
    returned log date day ⊆ counted log date day := by
  intro user huser
  obtain ⟨hseen, row, hlog, hwatch, rfl, hdate⟩ := mem_returned.mp huser
  refine mem_counted.mpr ⟨hseen, row, hlog, hwatch, rfl, ?_⟩
  rw [toUInt8_dateDiff (hdate ▸ Nat.le_add_right _ _), hdate, Nat.add_sub_cancel_left]
  exact Nat.mod_eq_of_lt (by omega)

theorem noWrappedReturn_iff :
    NoWrappedReturn log date ↔ ∀ day ≤ 7, counted log date day = returned log date day := by
  constructor
  · intro h day hday
    refine Finset.Subset.antisymm ?_ (returned_subset_counted hday)
    intro user huser
    obtain ⟨hseen, row, hlog, hwatch, rfl, hnarrow⟩ := mem_counted.mp huser
    have hle := hseen.le ⟨row, hlog, hwatch, rfl, rfl⟩
    rw [toUInt8_dateDiff hle] at hnarrow
    subst hnarrow
    exact mem_returned.mpr ⟨hseen, h row hlog hwatch hseen hday⟩
  · intro h row hlog hwatch hseen hday
    have hle := hseen.le ⟨row, hlog, hwatch, rfl, rfl⟩
    have hcounted : row.userId ∈ counted log date ((row.eventDate - date) % 256) :=
      mem_counted.mpr ⟨hseen, row, hlog, hwatch, rfl, toUInt8_dateDiff hle⟩
    rw [h _ hday] at hcounted
    exact (mem_returned.mp hcounted).2

/-- What the rows of the cohort table show of a day. -/
theorem shownRate_selectRetentionCohorts {day : Nat} (hday : day ≤ 7) :
    shownRate (selectRetentionCohorts log date computedAt) day =
      ((counted log date day).card : ℚ) / (cohort log date).card := by
  unfold shownRate
  split
  · rename_i row hfind
    have hrow := List.mem_of_find?_eq_some hfind
    have hfound := List.find?_some hfind
    simp only [decide_eq_true_eq] at hfound
    obtain ⟨day', _, _, rfl⟩ := mem_selectRetentionCohorts.mp hrow
    rw [show day' = day from hfound]
    rfl
  · rename_i hnone
    have hempty : counted log date day = ∅ := by
      rw [← Finset.not_nonempty_iff_eq_empty]
      intro hnonempty
      have hmem : cohortRow log date computedAt day ∈ selectRetentionCohorts log date computedAt :=
        mem_selectRetentionCohorts.mpr ⟨day, hday, hnonempty, rfl⟩
      have hne := List.find?_eq_none.mp hnone _ hmem
      exact hne (decide_eq_true rfl)
    rw [hempty]
    simp

/-- The tables agree exactly when nobody's return is narrowed to another day. -/
theorem retentionAgrees_iff (log : EventLog) (date : Date) (computedAt : Nat) :
    RetentionAgrees log date (selectRetentionCohorts log date computedAt)
      (selectRetention log date computedAt) ↔ NoWrappedReturn log date := by
  rw [noWrappedReturn_iff]
  constructor
  · intro h day hday
    refine (Finset.eq_of_subset_of_card_le (returned_subset_counted hday) ?_).symm
    rcases Finset.eq_empty_or_nonempty (counted log date day) with hempty | hnonempty
    · rw [hempty]
      exact Nat.zero_le _
    · have hmem : cohortRow log date computedAt day ∈ selectRetentionCohorts log date computedAt :=
        mem_selectRetentionCohorts.mpr ⟨day, hday, hnonempty, rfl⟩
      exact le_of_eq (h.users _ hmem).2.1
  · intro h
    refine ⟨?_, ?_, ?_, ?_⟩
    · intro day hday
      constructor
      · rintro ⟨row, hrow, hrowDay⟩
        obtain ⟨day', _, ⟨user, huser⟩, rfl⟩ := mem_selectRetentionCohorts.mp hrow
        rw [show day' = day from hrowDay, h day hday] at huser
        exact ⟨user, mem_returned.mp huser⟩
      · rintro ⟨user, huser⟩
        refine ⟨_, mem_selectRetentionCohorts.mpr ⟨day, hday, ⟨user, ?_⟩, rfl⟩, rfl⟩
        rw [h day hday]
        exact mem_returned.mpr huser
    · intro row hrow
      obtain ⟨day, hday, _, rfl⟩ := mem_selectRetentionCohorts.mp hrow
      refine ⟨hday, congrArg Finset.card (h day hday), ?_⟩
      exact Finset.card_le_card fun user huser => mem_cohort.mpr (mem_counted.mp huser).1
    · intro row hrow hzero
      obtain ⟨day, _, _, rfl⟩ := mem_selectRetentionCohorts.mp hrow
      rw [show day = 0 from hzero]
      exact congrArg Finset.card ((h 0 (Nat.zero_le _)).trans (returned_zero log date))
    · refine ⟨_, selectRetention_eq log date computedAt, ?_, ?_⟩
      · rw [shownRate_selectRetentionCohorts (by decide), h 1 (by decide)]
        rfl
      · rw [shownRate_selectRetentionCohorts (by decide), h 7 (by decide)]
        rfl

/-- After an aggregation of a date, whatever the tables held before, the two
    computations agree exactly when no return is narrowed to another day. -/
theorem retention_agrees {i : Nat} {s s' : Analytics} {result : AggregationResult}
    (h : (aggregateForDate date).Runs (exec i) s (.ok result) s') :
    RetentionAgrees s.movieEvents date (s'.readFinal .retentionCohorts date)
      (s'.readFinal .dailyRetention date) ↔ NoWrappedReturn s.movieEvents date := by
  have hrows := (aggregateForDate_runs h).rows
  rw [readFinal_of_rows (hrows .retentionCohorts), readFinal_of_rows (hrows .dailyRetention)]
  exact retentionAgrees_iff s.movieEvents date _

/-! ## Two logs -/

/-- An event of a user on a day, for the logs below. -/
def viewOn (user : String) (day : Nat) : EventRow :=
  movieEventsMv ⟨day, user, "m", .viewStarted, 86400000 * day, .tv, "s", some 0, none, 1⟩

/-- Two users first seen on day 10, of whom one comes back on days 11 and 17. -/
def weekLog : EventLog :=
  [viewOn "u" 17, viewOn "u" 11, viewOn "v" 10, viewOn "u" 10]

/-- The user comes back on day 267, which is day 1 of the cohort modulo 256. -/
def wrappedLog : EventLog := [viewOn "u" 267, viewOn "u" 10]

theorem retention_agrees_sample : ∃ s', (aggregateForDate 10).Runs (exec 0)
      (.initial 0 weekLog fun _ => []) (.ok ⟨10, 2, 9⟩) s' ∧
    RetentionAgrees weekLog 10 (s'.readFinal .retentionCohorts 10)
      (s'.readFinal .dailyRetention 10) := by
  obtain ⟨s', hrun⟩ : ∃ s', (aggregateForDate 10).Runs (exec 0)
      (.initial 0 weekLog fun _ => []) (.ok ⟨10, 2, 9⟩) s' :=
    Program.exists_runs_of_alone .done (by decide +kernel)
  exact ⟨s', hrun, (retention_agrees hrun).mpr (by decide +kernel)⟩

/-- The cohort table counts the user for day 1, on which nobody came back. -/
theorem retention_disagrees : ∃ s', (aggregateForDate 10).Runs (exec 0)
      (.initial 0 wrappedLog fun _ => []) (.ok ⟨10, 1, 9⟩) s' ∧
    ¬ RetentionAgrees wrappedLog 10 (s'.readFinal .retentionCohorts 10)
      (s'.readFinal .dailyRetention 10) := by
  obtain ⟨s', hrun⟩ : ∃ s', (aggregateForDate 10).Runs (exec 0)
      (.initial 0 wrappedLog fun _ => []) (.ok ⟨10, 1, 9⟩) s' :=
    Program.exists_runs_of_alone .done (by decide +kernel)
  have hrows := (aggregateForDate_runs hrun).rows
  refine ⟨s', hrun, ?_⟩
  rw [readFinal_of_rows (hrows .retentionCohorts)]
  intro h
  have husers := (h.users (cohortRow wrappedLog 10 0 1) (by decide +kernel)).2.1
  exact absurd husers (by decide +kernel)

end SoaHomework.MovieAnalytics

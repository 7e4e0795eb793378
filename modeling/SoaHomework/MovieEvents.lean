import Mathlib.Data.Finset.Card
import Mathlib.Data.Finset.Dedup

/-!
# Movie events

The records of `movie-event.avsc` and the table `movie_events` that the
materialized view fills from the Kafka queue. The table is a plain MergeTree:
every row that arrives stays, also when it has arrived before.
-/

namespace SoaHomework.MovieAnalytics

inductive EventType where
  | viewStarted
  | viewFinished
  | viewPaused
  | viewResumed
  | liked
  | searched
deriving DecidableEq, Repr

inductive DeviceType where
  | mobile
  | desktop
  | tv
  | tablet
deriving DecidableEq, Repr

def DeviceType.value : DeviceType → String
  | .mobile => "MOBILE"
  | .desktop => "DESKTOP"
  | .tv => "TV"
  | .tablet => "TABLET"

theorem DeviceType.value_injective : Function.Injective DeviceType.value := by
  intro a b h
  cases a <;> cases b <;> first | rfl | (exact absurd h (by decide))

/-- A day since 1970-01-01. -/
abbrev Date := Nat

/-- A row of `movie_events_queue`. The timestamp counts milliseconds. -/
structure MovieEvent where
  eventId : Nat
  userId : String
  movieId : String
  eventType : EventType
  timestamp : Int
  deviceType : DeviceType
  sessionId : String
  progressSeconds : Option Int
  searchQuery : Option String
  schemaVersion : Int
deriving DecidableEq, Repr

/-- `toDate`, into the two bytes of a `Date` -/
def toDate (timestamp : Int) : Date := min (timestamp / 86400000).toNat 65535

/-- A row of `movie_events`. -/
structure EventRow extends MovieEvent where
  eventDate : Date
  dated : eventDate = toDate timestamp
deriving DecidableEq, Repr

def movieEventsMv (event : MovieEvent) : EventRow :=
  ⟨event, toDate event.timestamp, rfl⟩

theorem EventRow.toDate_timestamp (row : EventRow) : toDate row.timestamp = row.eventDate :=
  row.dated.symm

/-- The rows of `movie_events`, the last arrived first. -/
abbrev EventLog := List EventRow

/-! ## Watching -/

/-- `event_type IN ('VIEW_STARTED', 'VIEW_FINISHED', 'VIEW_PAUSED', 'VIEW_RESUMED')` -/
def EventType.isWatch : EventType → Bool
  | .viewStarted | .viewFinished | .viewPaused | .viewResumed => true
  | .liked | .searched => false

def Watched (log : EventLog) (user : String) (date : Date) : Prop :=
  ∃ row ∈ log, row.eventType.isWatch = true ∧ row.userId = user ∧ row.eventDate = date

/-- The user's first watch event is on `date`. -/
def FirstSeen (log : EventLog) (date : Date) (user : String) : Prop :=
  Watched log user date ∧
    ∀ row ∈ log, row.eventType.isWatch = true → row.userId = user → date ≤ row.eventDate

instance (log : EventLog) (user : String) (date : Date) : Decidable (Watched log user date) :=
  inferInstanceAs (Decidable (∃ row ∈ log, _))

instance (log : EventLog) (date : Date) (user : String) : Decidable (FirstSeen log date user) :=
  inferInstanceAs (Decidable (_ ∧ ∀ row ∈ log, _))

/-- The users first seen watching on `date`. -/
def cohort (log : EventLog) (date : Date) : Finset String :=
  (log.map (·.userId)).toFinset.filter (FirstSeen log date)

/-- Those of them who watched `days` days later. -/
def returned (log : EventLog) (date : Date) (days : Nat) : Finset String :=
  (cohort log date).filter fun user => Watched log user (date + days)

theorem mem_cohort {log : EventLog} {date : Date} {user : String} :
    user ∈ cohort log date ↔ FirstSeen log date user := by
  simp only [cohort, Finset.mem_filter, List.mem_toFinset, List.mem_map, and_iff_right_iff_imp]
  rintro ⟨⟨row, hrow, _, huser, _⟩, _⟩
  exact ⟨row, hrow, huser⟩

theorem mem_returned {log : EventLog} {date : Date} {days : Nat} {user : String} :
    user ∈ returned log date days ↔
      FirstSeen log date user ∧ Watched log user (date + days) := by
  rw [returned, Finset.mem_filter, mem_cohort]

theorem returned_zero (log : EventLog) (date : Date) : returned log date 0 = cohort log date := by
  ext user
  rw [mem_returned, mem_cohort]
  exact ⟨fun h => h.1, fun h => ⟨h, h.1⟩⟩

/-- A user cannot be seen before being first seen. -/
theorem FirstSeen.le {log : EventLog} {date later : Date} {user : String}
    (h : FirstSeen log date user) (hw : Watched log user later) : date ≤ later := by
  obtain ⟨row, hrow, hwatch, huser, rfl⟩ := hw
  exact h.2 row hrow hwatch huser

end SoaHomework.MovieAnalytics

import SoaHomework.AvroBinary
import SoaHomework.EventTimes
import SoaHomework.MovieEvents

/-!
# Events on the wire

The validation of `app/models.py` in the producer service, `to_avro_dict`, and
`SchemaRegistryClient.encode` with the schema `movie-event.avsc`. What fastavro
writes is a parameter; of it is assumed only that it writes conforming records in
the Avro binary encoding.
-/

namespace SoaHomework.MovieProducer

open MovieAnalytics (EventType DeviceType)
open AvroBinary (AvroType Datum Record RecordSchema Bytes)

/-! ## MovieEventIn -/

/-- A `datetime`: the wall clock in microseconds since 1970-01-01 00:00, and the
    offset from UTC of an aware one. -/
structure Datetime where
  wall : Int
  offset : Option Int
  /-- `datetime.min`, 0001-01-01 00:00 -/
  earliest : -62135596800000000 ≤ wall
  /-- `datetime.max`, 9999-12-31 23:59:59.999999 -/
  latest : wall ≤ 253402300799999999
deriving DecidableEq, Repr

inductive Rejection where
  | tooShort (field : String)
  | negative (field : String)
  /-- `OverflowError` of `astimezone` -/
  | overflow
  | value (message : String)
deriving DecidableEq, Repr

/-- `replace(tzinfo=timezone.utc)` of a naive time, `astimezone(timezone.utc)` of an
    aware one. -/
def Datetime.toUtc (time : Datetime) : Except Rejection Datetime :=
  match time.offset with
  | none => .ok ⟨time.wall, some 0, time.earliest, time.latest⟩
  | some offset =>
      if h : -62135596800000000 ≤ time.wall - offset ∧ time.wall - offset ≤ 253402300799999999
      then .ok ⟨time.wall - offset, some 0, h.1, h.2⟩
      else .error .overflow

structure MovieEventIn where
  eventID : BitVec 128
  userID : String
  movieID : String
  eventType : EventType
  timestamp : Datetime
  deviceType : DeviceType
  sessionID : String
  progressSeconds : Option Int
  searchQuery : Option String
  schemaVersion : Int
deriving DecidableEq, Repr

namespace MovieEventIn

/-- `requires_progress` -/
def requiresProgress : EventType → Bool
  | .viewStarted | .viewPaused | .viewResumed | .viewFinished => true
  | .liked | .searched => false

def validatePayload (event : MovieEventIn) : Except Rejection MovieEventIn := do
  let timestamp ← event.timestamp.toUtc
  if requiresProgress event.eventType ∧ event.progressSeconds = none then
    throw (.value "progress_seconds is required for watch events")
  else if event.eventType = .searched ∧ event.searchQuery.getD "" = "" then
    throw (.value "search_query is required for SEARCHED events")
  else return { event with timestamp := timestamp }

/-- `Field(min_length=1)` -/
def checkLength (field value : String) : Except Rejection Unit :=
  if value = "" then .error (.tooShort field) else .ok ()

/-- The declared fields, then `validate_payload`. -/
def validate (event : MovieEventIn) : Except Rejection MovieEventIn := do
  checkLength "user_id" event.userID
  checkLength "movie_id" event.movieID
  checkLength "session_id" event.sessionID
  if event.progressSeconds.any fun seconds => decide (seconds < 0) then
    throw (.negative "progress_seconds")
  else event.validatePayload

end MovieEventIn

/-! ## to_avro_dict -/

def hexDigits (count : Nat) (value : Nat) : List Char :=
  (List.range count).reverse.map fun place => Nat.digitChar (value / 16 ^ place % 16)

/-- `str(event_id)`: 32 hexadecimal digits in groups of 8, 4, 4, 4 and 12. -/
def uuidText (id : BitVec 128) : String :=
  let digits := hexDigits 32 id.toNat
  String.ofList (digits.take 8 ++ '-' :: ((digits.drop 8).take 4 ++ '-' ::
    ((digits.drop 12).take 4 ++ '-' :: ((digits.drop 16).take 4 ++ '-' :: digits.drop 20))))

/-- `timestamp()` of a time in UTC: microseconds divided as a `float`. -/
def Datetime.timestamp (time : Datetime) : ℚ := Binary64.double ((time.wall : ℚ) / 1000000)

/-- `int(timestamp() * 1000)` -/
def Datetime.milliseconds (time : Datetime) : Int :=
  Binary64.truncate (Binary64.double (time.timestamp * 1000))

/-- What `schemaless_writer` appends to the buffer, unless it raises. -/
abbrev Writer := RecordSchema → Record → Option Bytes

/-- `struct.pack(">bI", 0, schema_id)` -/
def header (schemaID : UInt32) : Bytes :=
  [0, (schemaID.toNat / 2 ^ 24).toUInt8, (schemaID.toNat / 2 ^ 16).toUInt8,
    (schemaID.toNat / 2 ^ 8).toUInt8, schemaID.toNat.toUInt8]

/-- `SchemaRegistryClient.encode`, once the registry has answered. -/
def encode (schemalessWriter : Writer) (latestSchema : UInt32 × RecordSchema)
    (payload : Record) : Option Bytes :=
  (schemalessWriter latestSchema.2 payload).map fun body => header latestSchema.1 ++ body

/-- The value of a hexadecimal digit. -/
def hexValue (c : Char) : Option Nat := (List.range 16).find? fun value => c = Nat.digitChar value

/-- `UUID(text)` of a text with digits and hyphens. -/
def readUuid (text : String) : Option (BitVec 128) := do
  let digits ← (text.toList.filter (· ≠ '-')).mapM hexValue
  if digits.length = 32 then return .ofNat 128 (digits.foldl (16 * · + ·) 0) else none

theorem exists_of_bind_ok {α β : Type} {first : Except Rejection α}
    {next : α → Except Rejection β} {result : β} (h : (first >>= next) = .ok result) :
    ∃ value, first = .ok value ∧ next value = .ok result := by
  cases first with
  | error error => cases h
  | ok value => exact ⟨value, rfl, h⟩

/-- `validate_payload` replaces nothing but the timestamp. -/
theorem MovieEventIn.validatePayload_progress {input event : MovieEventIn}
    (h : input.validatePayload = .ok event) :
    event.progressSeconds = input.progressSeconds := by
  obtain ⟨timestamp, _, hchecks⟩ := exists_of_bind_ok h
  split at hchecks
  · cases hchecks
  · split at hchecks
    · cases hchecks
    · cases hchecks
      rfl

/-- Validation passes no event with a negative progress. -/
theorem MovieEventIn.progress_of_validate {input event : MovieEventIn}
    (h : input.validate = .ok event) {seconds : Int}
    (hseconds : event.progressSeconds = some seconds) : 0 ≤ seconds := by
  obtain ⟨_, _, h⟩ := exists_of_bind_ok h
  obtain ⟨_, _, h⟩ := exists_of_bind_ok h
  obtain ⟨_, _, h⟩ := exists_of_bind_ok h
  split at h
  · cases h
  · rename_i hprogress
    rw [validatePayload_progress h] at hseconds
    rw [hseconds, Option.any_some, decide_eq_true_eq] at hprogress
    omega

end SoaHomework.MovieProducer

import Mathlib.Computability.RegularExpressions
import SoaHomework.EventSchema
import SoaHomework.ProgramRuns

/-!
# Synthetic sessions

The generator of the producer service, `app/generator.py`, as a program over the
calls of `random`, `uuid4()` and the clock. Whatever these give within their ranges,
the events of a session are well formed (`synthetic_sessions_well_formed`).
-/

namespace SoaHomework.MovieProducer

open StatementProgram
open MovieAnalytics (EventType DeviceType)

/-! ## The generator -/

/-- What the generator takes from outside. -/
inductive Draw where
  | randint (low high : Int)
  | random
  | choice (options : List String)
  | choiceDevice (options : List DeviceType)
  | uuid4
  /-- `datetime.now(timezone.utc)` -/
  | now

@[reducible] def Drawn : Draw → Type
  | .randint _ _ => Int
  | .random => ℚ
  | .choice _ => String
  | .choiceDevice _ => DeviceType
  | .uuid4 => BitVec 128
  | .now => Datetime

inductive GeneratorError where
  | invalid (rejection : Rejection)
  /-- `OverflowError` of a `datetime` that a `timedelta` is added to -/
  | overflow
  | indexError
deriving DecidableEq, Repr

abbrev Generator := Program Draw Drawn GeneratorError

def users : List String := (List.range 200).map fun index => "user-" ++ toString (index + 1)

def movies : List String := (List.range 80).map fun index => "movie-" ++ toString (index + 1)

def searchTerms : List String :=
  ["sci-fi", "comedy", "drama", "oscar winners", "crime thriller", "family movies", "marvel",
    "christopher nolan", "animated movies", "romantic comedies", "series to binge", "top imdb",
    "new releases", "80s classics", "detective series", "space opera", "historical drama",
    "cyberpunk", "korean thriller", "anime"]

def deviceTypes : List DeviceType := [.mobile, .desktop, .tv, .tablet]

def randint (low high : Int) : Generator Int := Program.perform (Draw.randint low high)

/-- `random.random() < threshold` -/
def chance (threshold : ℚ) : Generator Bool := do
  let draw ← Program.perform Draw.random
  return decide (draw < Binary64.double threshold)

/-- `_session_events` -/
def sessionEvents : Generator (List (EventType × Option Int)) := do
  let finishProgress ← randint 3600 8000
  let pauseProgress ← randint 120 (min 1800 (finishProgress - 300))
  let pauseLength ← randint 60 900
  let resumeProgress := min (finishProgress - 60) (pauseProgress + pauseLength)
  let first ← chance (80 / 100)
  let firstPause := if first then
      [(EventType.viewPaused, some pauseProgress), (.viewResumed, some resumeProgress)]
    else []
  let second ← chance (25 / 100)
  let secondPause ← if second then pauseAgain finishProgress resumeProgress else pure []
  let finished ← chance (72 / 100)
  let finish := if finished then [(EventType.viewFinished, some finishProgress)] else []
  return [(.viewStarted, some 0)] ++ firstPause ++ secondPause ++ finish
where
  pauseAgain (finishProgress resumeProgress : Int) :
      Generator (List (EventType × Option Int)) := do
    let toPause ← randint 90 1200
    let secondPause := min (finishProgress - 30) (resumeProgress + toPause)
    let toResume ← randint 30 600
    let secondResume := min (finishProgress - 10) (secondPause + toResume)
    return [(.viewPaused, some secondPause), (.viewResumed, some secondResume)]

/-- What the events of one session share. -/
structure SessionFields where
  userID : String
  movieID : String
  deviceType : DeviceType
  sessionID : String

def SessionFields.event (session : SessionFields) (eventID : BitVec 128) (eventType : EventType)
    (timestamp : Datetime) (progressSeconds : Option Int) (searchQuery : Option String) :
    MovieEventIn where
  eventID := eventID
  userID := session.userID
  movieID := session.movieID
  eventType := eventType
  timestamp := timestamp
  deviceType := session.deviceType
  sessionID := session.sessionID
  progressSeconds := progressSeconds
  searchQuery := searchQuery
  schemaVersion := 1

def returnValid : Except Rejection MovieEventIn → Generator MovieEventIn
  | .ok event => .ret event
  | .error rejection => .fail (.invalid rejection)

/-- `MovieEventIn(...)`, with `uuid4()` for the `event_id` -/
def newEvent (session : SessionFields) (eventType : EventType) (timestamp : Datetime)
    (progressSeconds : Option Int) (searchQuery : Option String) : Generator MovieEventIn := do
  let eventID ← Program.perform Draw.uuid4
  returnValid (session.event eventID eventType timestamp progressSeconds searchQuery).validate

/-- `time + timedelta(seconds=seconds)` -/
def addSeconds (time : Datetime) (seconds : Int) : Generator Datetime :=
  if h : -62135596800000000 ≤ time.wall + seconds * 1000000 ∧
      time.wall + seconds * 1000000 ≤ 253402300799999999 then
    .ret ⟨time.wall + seconds * 1000000, time.offset, h.1, h.2⟩
  else .fail .overflow

/-- The loop over the watch events, with `current_time` after it. -/
def watchSession (session : SessionFields) :
    List (EventType × Option Int) → List MovieEventIn → Datetime →
      Generator (List MovieEventIn × Datetime)
  | [], events, currentTime => return (events, currentTime)
  | (eventType, progress) :: sequence, events, currentTime => do
      let event ← newEvent session eventType currentTime progress none
      let gap ← randint 20 180
      let currentTime ← addSeconds currentTime gap
      watchSession session sequence (events ++ [event]) currentTime

/-- `events[-1]` -/
def lastEvent (events : List MovieEventIn) : Generator MovieEventIn :=
  match events.getLast? with
  | some event => .ret event
  | none => .fail .indexError

def like (session : SessionFields) (events : List MovieEventIn) (currentTime : Datetime) :
    Generator (List MovieEventIn) := do
  let delay ← randint 15 180
  let timestamp ← addSeconds currentTime delay
  let last ← lastEvent events
  let event ← newEvent session .liked timestamp last.progressSeconds none
  return events ++ [event]

def search (session : SessionFields) (events : List MovieEventIn) (baseTime : Datetime) :
    Generator (List MovieEventIn) := do
  let timestamp ← addSeconds baseTime (-30)
  let searchQuery ← Program.perform (Draw.choice searchTerms)
  let event ← newEvent session .searched timestamp (some 0) (some searchQuery)
  return event :: events

def buildSyntheticSequence : Generator (List MovieEventIn) := do
  let userID ← Program.perform (Draw.choice users)
  let movieID ← Program.perform (Draw.choice movies)
  let deviceType ← Program.perform (Draw.choiceDevice deviceTypes)
  let sessionUuid ← Program.perform Draw.uuid4
  let session : SessionFields := ⟨userID, movieID, deviceType, "session-" ++ uuidText sessionUuid⟩
  let baseTime ← Program.perform Draw.now
  let sequence ← sessionEvents
  let (events, currentTime) ← watchSession session sequence [] baseTime
  let liked ← chance (55 / 100)
  let events ← if liked then like session events currentTime else pure events
  let searched ← chance (65 / 100)
  if searched then search session events baseTime else return events

/-! ## Well-formed sessions -/

/-- `VIEW_STARTED (VIEW_PAUSED VIEW_RESUMED)* VIEW_FINISHED?` -/
def watchPattern : RegularExpression EventType :=
  .char .viewStarted * (RegularExpression.char .viewPaused * .char .viewResumed).star *
    (1 + .char .viewFinished)

def watchEvents (events : List MovieEventIn) : List MovieEventIn :=
  events.filter fun event => MovieEventIn.requiresProgress event.eventType

/-- What holds of the progress of one watch event. -/
structure Reaches (finish : Int) (eventType : EventType) (seconds : Int) : Prop where
  nonneg : 0 ≤ seconds
  atMost : seconds ≤ finish
  before : eventType ≠ .viewFinished → seconds < finish
  finished : eventType = .viewFinished → seconds = finish

/-- The events of a session whose film ends at `finish`. -/
structure WellFormed (finish : Int) (events : List MovieEventIn) : Prop where
  times : events.Pairwise fun earlier later => earlier.timestamp.wall < later.timestamp.wall
  progress : ∃ seconds : List Int, events.map (·.progressSeconds) = seconds.map some ∧
    seconds.Pairwise (· ≤ ·) ∧ ∀ n ∈ seconds, n ≤ finish
  watch : ∃ seconds : List Int, (watchEvents events).map (·.progressSeconds) = seconds.map some ∧
    seconds.Pairwise (· < ·)
  form : (watchEvents events).map (·.eventType) ∈ watchPattern.matches'
  reaches : ∀ event ∈ watchEvents events, ∀ seconds, event.progressSeconds = some seconds →
    Reaches finish event.eventType seconds
  valid : ∀ event ∈ events, event.validate = .ok event

/-! ## The draws -/

/-- Every draw is in its range, `datetime.now(timezone.utc)` is `clock`, and
    `randint(3_600, 8_000)` gives `finish`. -/
def InRange (clock : Datetime) (finish : Int) : (draw : Draw) → Drawn draw → Prop
  | .randint low high, n => low ≤ n ∧ n ≤ high ∧ (low = 3600 → high = 8000 → n = finish)
  | .random, x => 0 ≤ x ∧ x < 1
  | .choice options, option => option ∈ options
  | .choiceDevice options, option => option ∈ options
  | .uuid4, _ => True
  | .now, time => time = clock ∧ time.offset = some 0

/-- There is something to draw. -/
def NonemptyRange : Draw → Prop
  | .randint low high => low ≤ high
  | .choice options => options ≠ []
  | .choiceDevice options => options ≠ []
  | _ => True

/-- The clock is not at an end of the range of `datetime`. -/
def RoomAround (clock : Datetime) : Prop :=
  -62135596800000000 ≤ clock.wall - 30000000 ∧ clock.wall + 1260000000 ≤ 253402300799999999

section Rules

variable {clock : Datetime} {finish : Int} {α : Type}

theorem meets_randint {low high : Int} {next : Int → Generator α}
    {post : Except GeneratorError α → Prop} (hrange : low ≤ high)
    (h : ∀ n, low ≤ n → n ≤ high → (low = 3600 → high = 8000 → n = finish) →
      (next n).Meets (InRange clock finish) NonemptyRange post) :
    (randint low high >>= next).Meets (InRange clock finish) NonemptyRange post :=
  ⟨hrange, fun n hn => h n hn.1 hn.2.1 hn.2.2⟩

theorem meets_chance {threshold : ℚ} {next : Bool → Generator α}
    {post : Except GeneratorError α → Prop}
    (h : ∀ b, (next b).Meets (InRange clock finish) NonemptyRange post) :
    (chance threshold >>= next).Meets (InRange clock finish) NonemptyRange post :=
  ⟨trivial, fun _ _ => h _⟩

end Rules

/-! ## The watch events -/

/-- The watch events of a session whose film ends at `finish`. -/
structure WatchSequence (finish : Int) (sequence : List (EventType × Option Int)) : Prop where
  nonempty : sequence ≠ []
  short : sequence.length ≤ 6
  form : sequence.map Prod.fst ∈ watchPattern.matches'
  known : sequence.map Prod.snd = (sequence.filterMap Prod.snd).map some
  increasing : (sequence.filterMap Prod.snd).Pairwise (· < ·)
  watch : ∀ entry ∈ sequence, MovieEventIn.requiresProgress entry.1 = true
  reaches : ∀ entry ∈ sequence, ∀ seconds, entry.2 = some seconds →
    Reaches finish entry.1 seconds

theorem Reaches.of_before {finish seconds : Int} {eventType : EventType} (hnonneg : 0 ≤ seconds)
    (hbefore : seconds < finish) (htype : eventType ≠ .viewFinished) :
    Reaches finish eventType seconds :=
  ⟨hnonneg, hbefore.le, fun _ => hbefore, fun h => absurd h htype⟩

theorem Reaches.at_finish {finish : Int} (hnonneg : 0 ≤ finish) :
    Reaches finish .viewFinished finish :=
  ⟨hnonneg, le_rfl, fun h => absurd rfl h, fun _ => rfl⟩

/-- The progress is known, above `low`, at most `high`, and strictly increases. -/
structure Climbs (low high : Int) (entries : List (EventType × Option Int)) : Prop where
  known : entries.map Prod.snd = (entries.filterMap Prod.snd).map some
  increasing : (entries.filterMap Prod.snd).Pairwise (· < ·)
  above : ∀ n ∈ entries.filterMap Prod.snd, low < n
  atMost : ∀ n ∈ entries.filterMap Prod.snd, n ≤ high

namespace Climbs

variable {low middle high : Int} {entries entries' : List (EventType × Option Int)}

theorem append (h : Climbs low middle entries) (h' : Climbs middle high entries')
    (hlow : low ≤ middle) (hhigh : middle ≤ high) : Climbs low high (entries ++ entries') := by
  constructor
  · rw [List.map_append, List.filterMap_append, List.map_append, h.known, h'.known]
  · rw [List.filterMap_append, List.pairwise_append]
    refine ⟨h.increasing, h'.increasing, fun n hn n' hn' => ?_⟩
    exact lt_of_le_of_lt (h.atMost n hn) (h'.above n' hn')
  · intro n hn
    rw [List.filterMap_append, List.mem_append] at hn
    rcases hn with hn | hn
    · exact h.above n hn
    · exact lt_of_le_of_lt hlow (h'.above n hn)
  · intro n hn
    rw [List.filterMap_append, List.mem_append] at hn
    rcases hn with hn | hn
    · exact le_trans (h.atMost n hn) hhigh
    · exact h'.atMost n hn

theorem single (eventType : EventType) (hlow : low < high) :
    Climbs low high [(eventType, some high)] := by
  constructor
  · rfl
  · exact List.pairwise_singleton _ _
  · intro n hn
    rw [List.mem_singleton.mp hn]
    exact hlow
  · intro n hn
    rw [List.mem_singleton.mp hn]

/-- A block that may be left out. -/
theorem optional (h : Climbs low high entries) (taken : Bool) :
    Climbs low high (if taken then entries else []) := by
  cases taken with
  | true => exact h
  | false => exact ⟨rfl, .nil, nofun, nofun⟩

end Climbs

/-- A pause and the resumption after it. -/
def pauseBlock (pause resume : Int) : List (EventType × Option Int) :=
  [(.viewPaused, some pause), (.viewResumed, some resume)]

theorem climbs_pauseBlock {low pause resume : Int} (hpause : low < pause)
    (hresume : pause < resume) : Climbs low resume (pauseBlock pause resume) :=
  (Climbs.single .viewPaused hpause).append (Climbs.single .viewResumed hresume) hpause.le
    hresume.le

/-- A session may leave out each of its pauses and its end. -/
def watchedParts (pause resume pause' resume' finish : Int) (first second finished : Bool) :
    List (EventType × Option Int) :=
  [(.viewStarted, some 0)] ++ (if first then pauseBlock pause resume else []) ++
    (if second then pauseBlock pause' resume' else []) ++
    (if finished then [(.viewFinished, some finish)] else [])

theorem form_watchedParts (pause resume pause' resume' finish : Int)
    (first second finished : Bool) :
    (watchedParts pause resume pause' resume' finish first second finished).map Prod.fst ∈
      watchPattern.matches' := by
  rw [← RegularExpression.rmatch_iff_matches']
  cases first <;> cases second <;> cases finished <;> rfl

theorem mem_of_mem_optional {entries : List (EventType × Option Int)} {taken : Bool}
    {entry : EventType × Option Int} (h : entry ∈ if taken then entries else []) :
    entry ∈ entries := by
  cases taken with
  | true => exact h
  | false => cases h

/-- Of the parts only the last one ends the film. -/
theorem mem_watchedParts {pause resume pause' resume' finish : Int}
    {first second finished : Bool} {entry : EventType × Option Int}
    (h : entry ∈ watchedParts pause resume pause' resume' finish first second finished) :
    (entry ∈ [(.viewStarted, some 0)] ++ (if first then pauseBlock pause resume else []) ++
        (if second then pauseBlock pause' resume' else []) ∧
      entry.1 ∈ [EventType.viewStarted, .viewPaused, .viewResumed]) ∨
      entry = (.viewFinished, some finish) := by
  have hblock : ∀ {pause resume : Int}, entry ∈ pauseBlock pause resume →
      entry.1 ∈ [EventType.viewStarted, .viewPaused, .viewResumed] := by
    intro pause resume hmem
    rcases List.mem_pair.mp hmem with rfl | rfl
    · simp
    · simp
  rw [watchedParts, List.mem_append] at h
  rcases h with hbefore | hlast
  · refine Or.inl ⟨hbefore, ?_⟩
    rcases List.mem_append.mp hbefore with hstart | hsecond
    · rcases List.mem_append.mp hstart with hstart | hfirst
      · rw [List.mem_singleton.mp hstart]
        simp
      · exact hblock (mem_of_mem_optional hfirst)
    · exact hblock (mem_of_mem_optional hsecond)
  · exact Or.inr (List.mem_singleton.mp (mem_of_mem_optional hlast))

theorem watchSequence_watchedParts (pause resume pause' resume' finish : Int) (hpause : 0 < pause)
    (hresume : pause < resume) (hpause' : resume < pause') (hresume' : pause' < resume')
    (hfinish : resume' < finish) (first second finished : Bool) :
    WatchSequence finish
      (watchedParts pause resume pause' resume' finish first second finished) := by
  have hfirst := (climbs_pauseBlock hpause hresume).optional first
  have hsecond := (climbs_pauseBlock hpause' hresume').optional second
  have hlast := (Climbs.single .viewFinished hfinish).optional finished
  have hstart : Climbs (-1) 0 [(.viewStarted, some 0)] := Climbs.single _ (by omega)
  have hbefore := (hstart.append hfirst (by omega) (by omega)).append hsecond (by omega) (by omega)
  have hall := hbefore.append hlast (by omega) (by omega)
  constructor
  · simp [watchedParts]
  · simp only [watchedParts, List.length_append]
    split <;> split <;> split <;> simp [pauseBlock]
  · exact form_watchedParts pause resume pause' resume' finish first second finished
  · exact hall.known
  · exact hall.increasing
  · intro entry hentry
    rcases mem_watchedParts hentry with ⟨_, htype⟩ | rfl
    · simp only [List.mem_cons, List.not_mem_nil, or_false] at htype
      rcases htype with htype | htype | htype <;> rw [htype] <;> rfl
    · rfl
  · intro entry hentry seconds hseconds
    rcases mem_watchedParts hentry with ⟨hmem, htype⟩ | rfl
    · have hn := List.mem_filterMap.mpr ⟨entry, hmem, hseconds⟩
      have hnonneg := hbefore.above seconds hn
      have hatMost := hbefore.atMost seconds hn
      apply Reaches.of_before (by omega) (by omega)
      rintro heq
      rw [heq] at htype
      simp at htype
    · obtain rfl : finish = seconds := Option.some.inj hseconds
      exact Reaches.at_finish (by omega)

/-- The ranges are not empty, and every clamp leaves the progress below the next one. -/
theorem meets_sessionEvents (clock : Datetime) (finish : Int) :
    sessionEvents.Meets (InRange clock finish) NonemptyRange fun result =>
      ∃ sequence, result = .ok sequence ∧ WatchSequence finish sequence := by
  apply meets_randint (by omega)
  intro finishProgress hlow hhigh hfinish
  obtain rfl := hfinish rfl rfl
  apply meets_randint (by omega)
  intro pauseProgress hpause hpause' _
  apply meets_randint (by omega)
  intro pauseLength hlength hlength' _
  apply meets_chance
  intro first
  apply meets_chance
  intro second
  cases second with
  | false =>
      apply meets_chance
      intro finished
      refine ⟨_, rfl, ?_⟩
      exact watchSequence_watchedParts pauseProgress
        (min (finishProgress - 60) (pauseProgress + pauseLength)) (finishProgress - 30)
        (finishProgress - 10) finishProgress (by omega) (by omega) (by omega) (by omega)
        (by omega) first false finished
  | true =>
      apply meets_randint (by omega)
      intro toPause htoPause htoPause' _
      apply meets_randint (by omega)
      intro toResume htoResume htoResume' _
      apply meets_chance
      intro finished
      refine ⟨_, rfl, ?_⟩
      exact watchSequence_watchedParts _ _ _ _ finishProgress (by omega) (by omega) (by omega)
        (by omega) (by omega) first true finished

/-! ## The events -/

/-- The texts of a session are not empty. -/
structure SessionFields.Named (session : SessionFields) : Prop where
  userID : session.userID ≠ ""
  movieID : session.movieID ≠ ""
  sessionID : session.sessionID ≠ ""

/-- What `MovieEventIn` asks of the fields that differ in a session. -/
structure Acceptable (eventType : EventType) (timestamp : Datetime)
    (progressSeconds : Option Int) (searchQuery : Option String) : Prop where
  utc : timestamp.offset = some 0
  nonneg : ∀ seconds, progressSeconds = some seconds → 0 ≤ seconds
  watch : MovieEventIn.requiresProgress eventType = true → progressSeconds ≠ none
  search : eventType = .searched → searchQuery.getD "" ≠ ""

theorem Datetime.toUtc_of_utc {time : Datetime} (h : time.offset = some 0) :
    time.toUtc = .ok time := by
  obtain ⟨wall, offset, earliest, latest⟩ := time
  simp only at h
  subst h
  simp only [Datetime.toUtc, Int.sub_zero]
  rw [dif_pos ⟨earliest, latest⟩]

theorem validate_of_acceptable {event : MovieEventIn} (huser : event.userID ≠ "")
    (hmovie : event.movieID ≠ "") (hsession : event.sessionID ≠ "")
    (h : Acceptable event.eventType event.timestamp event.progressSeconds event.searchQuery) :
    event.validate = .ok event := by
  have hprogress : (event.progressSeconds.any fun seconds => decide (seconds < 0)) = false := by
    cases hseconds : event.progressSeconds with
    | none => rfl
    | some seconds =>
        have := h.nonneg seconds hseconds
        simpa using this
  have hwatch : ¬ (MovieEventIn.requiresProgress event.eventType = true ∧
      event.progressSeconds = none) := fun hboth => h.watch hboth.1 hboth.2
  have hsearch : ¬ (event.eventType = .searched ∧ event.searchQuery.getD "" = "") :=
    fun hboth => h.search hboth.1 hboth.2
  have hpayload : event.validatePayload = .ok event := by
    simp only [MovieEventIn.validatePayload, Datetime.toUtc_of_utc h.utc]
    simp only [bind, Except.bind, if_neg hwatch, if_neg hsearch, pure, Except.pure]
  simp only [MovieEventIn.validate, MovieEventIn.checkLength, if_neg huser, if_neg hmovie,
    if_neg hsession, hprogress, hpayload]
  rfl

/-- An event of the session with these fields, which passes its validation. -/
structure IsEvent (eventType : EventType) (timestamp : Datetime) (progressSeconds : Option Int)
    (event : MovieEventIn) : Prop where
  eventType : event.eventType = eventType
  timestamp : event.timestamp = timestamp
  progressSeconds : event.progressSeconds = progressSeconds
  valid : event.validate = .ok event

section Events

variable {clock : Datetime} {finish : Int} {session : SessionFields} {α : Type}

theorem meets_newEvent (hsession : session.Named) {eventType : EventType} {timestamp : Datetime}
    {progressSeconds : Option Int} {searchQuery : Option String}
    (h : Acceptable eventType timestamp progressSeconds searchQuery)
    {next : MovieEventIn → Generator α} {post : Except GeneratorError α → Prop}
    (hnext : ∀ event, IsEvent eventType timestamp progressSeconds event →
      (next event).Meets (InRange clock finish) NonemptyRange post) :
    (newEvent session eventType timestamp progressSeconds searchQuery >>= next).Meets
      (InRange clock finish) NonemptyRange post := by
  refine ⟨trivial, fun eventID _ => ?_⟩
  have hvalid : (session.event eventID eventType timestamp progressSeconds searchQuery).validate =
      .ok (session.event eventID eventType timestamp progressSeconds searchQuery) :=
    validate_of_acceptable hsession.userID hsession.movieID hsession.sessionID h
  change ((returnValid (session.event eventID eventType timestamp progressSeconds
    searchQuery).validate).bind next).Meets _ _ _
  rw [hvalid]
  exact hnext _ ⟨rfl, rfl, rfl, hvalid⟩

/-- Adding to a time fails only out of the range of `datetime`. -/
theorem meets_addSeconds {time : Datetime} {seconds : Int} {next : Datetime → Generator α}
    {post : Except GeneratorError α → Prop}
    (hnext : ∀ time', time'.wall = time.wall + seconds * 1000000 → time'.offset = time.offset →
      (next time').Meets (InRange clock finish) NonemptyRange post)
    (herror : ¬ (-62135596800000000 ≤ time.wall + seconds * 1000000 ∧
      time.wall + seconds * 1000000 ≤ 253402300799999999) → post (.error .overflow)) :
    (addSeconds time seconds >>= next).Meets (InRange clock finish) NonemptyRange post := by
  rw [addSeconds]
  split
  · exact hnext _ rfl rfl
  · rename_i hout
    exact herror hout

/-- The events of a sequence, from `start` on and before `stop`. -/
structure Played (start : Datetime) (sequence : List (EventType × Option Int))
    (events : List MovieEventIn) (stop : Datetime) : Prop where
  entries : events.map (fun event => (event.eventType, event.progressSeconds)) = sequence
  times : events.Pairwise fun earlier later => earlier.timestamp.wall < later.timestamp.wall
  since : ∀ event ∈ events, start.wall ≤ event.timestamp.wall
  ended : ∀ event ∈ events, event.timestamp.wall < stop.wall
  valid : ∀ event ∈ events, event.validate = .ok event
  utc : stop.offset = some 0
  after : start.wall ≤ stop.wall
  near : stop.wall ≤ start.wall + 180000000 * sequence.length

theorem played_nil {start : Datetime} (h : start.offset = some 0) : Played start [] [] start := by
  constructor
  · rfl
  · exact .nil
  · exact fun _ hmem => absurd hmem List.not_mem_nil
  · exact fun _ hmem => absurd hmem List.not_mem_nil
  · exact fun _ hmem => absurd hmem List.not_mem_nil
  · exact h
  · exact le_rfl
  · simp

theorem Played.cons {start middle stop : Datetime} {sequence : List (EventType × Option Int)}
    {events : List MovieEventIn} {eventType : EventType} {progressSeconds : Option Int}
    {event : MovieEventIn} (h : Played middle sequence events stop)
    (hevent : IsEvent eventType start progressSeconds event) (hafter : start.wall < middle.wall)
    (hnear : middle.wall ≤ start.wall + 180000000) :
    Played start ((eventType, progressSeconds) :: sequence) (event :: events) stop := by
  have hstop := h.after
  constructor
  · rw [List.map_cons, h.entries, hevent.eventType, hevent.progressSeconds]
  · apply List.pairwise_cons.mpr
    refine ⟨fun later hlater => ?_, h.times⟩
    have := h.since later hlater
    rw [hevent.timestamp]
    omega
  · intro event' hmem
    rcases List.mem_cons.mp hmem with rfl | hmem
    · rw [hevent.timestamp]
    · have := h.since event' hmem
      omega
  · intro event' hmem
    rcases List.mem_cons.mp hmem with rfl | hmem
    · rw [hevent.timestamp]
      omega
    · exact h.ended event' hmem
  · intro event' hmem
    rcases List.mem_cons.mp hmem with rfl | hmem
    · exact hevent.valid
    · exact h.valid event' hmem
  · exact h.utc
  · omega
  · have := h.near
    rw [List.length_cons]
    push_cast
    omega

/-- The loop plays the sequence unless the clock runs out of `datetime`. -/
theorem meets_watchSession (hsession : session.Named) {start : Datetime}
    (hutc : start.offset = some 0) {sequence : List (EventType × Option Int)}
    (hwatch : ∀ entry ∈ sequence, MovieEventIn.requiresProgress entry.1 = true ∧
      ∃ seconds, entry.2 = some seconds ∧ 0 ≤ seconds) (events : List MovieEventIn)
    {next : List MovieEventIn × Datetime → Generator α} {post : Except GeneratorError α → Prop}
    (hnext : ∀ new stop, Played start sequence new stop →
      (next (events ++ new, stop)).Meets (InRange clock finish) NonemptyRange post)
    (herror : 253402300799999999 < start.wall + 180000000 * sequence.length →
      post (.error .overflow)) :
    (watchSession session sequence events start >>= next).Meets (InRange clock finish)
      NonemptyRange post := by
  induction sequence generalizing start events with
  | nil =>
      have hplayed := hnext [] start (played_nil hutc)
      rwa [List.append_nil] at hplayed
  | cons entry sequence ih =>
      obtain ⟨eventType, progress⟩ := entry
      obtain ⟨hrequires, seconds, hseconds, hnonneg⟩ := hwatch _ List.mem_cons_self
      simp only at hrequires hseconds
      subst hseconds
      have hacceptable : Acceptable eventType start (some seconds) none := by
        constructor
        · exact hutc
        · intro n hn
          rwa [← Option.some.inj hn]
        · nofun
        · rintro rfl
          cases hrequires
      rw [List.length_cons] at herror
      push_cast at herror
      have hearliest := start.earliest
      rw [watchSession, Program.bind_assoc]
      apply meets_newEvent hsession hacceptable
      intro event hevent
      rw [Program.bind_assoc]
      apply meets_randint (by omega)
      intro gap hgap hgap' _
      rw [Program.bind_assoc]
      apply meets_addSeconds
      · intro middle hwall hoffset
        have hrest : ∀ entry ∈ sequence, MovieEventIn.requiresProgress entry.1 = true ∧
            ∃ seconds, entry.2 = some seconds ∧ 0 ≤ seconds :=
          fun entry hentry => hwatch entry (List.mem_cons_of_mem _ hentry)
        apply ih (hoffset.trans hutc) hrest
        · intro new stop hplayed
          rw [List.append_assoc]
          apply hnext
          exact hplayed.cons hevent (by omega) (by omega)
        · intro hlate
          apply herror
          omega
      · intro hout
        apply herror
        omega

end Events

/-! ## Whole sessions -/

theorem WatchSequence.seconds_of_mem {finish : Int} {sequence : List (EventType × Option Int)}
    (h : WatchSequence finish sequence) {entry : EventType × Option Int} (hmem : entry ∈ sequence) :
    ∃ seconds, entry.2 = some seconds ∧ Reaches finish entry.1 seconds := by
  have hknown : entry.2 ∈ (sequence.filterMap Prod.snd).map some := by
    rw [← h.known]
    exact List.mem_map.mpr ⟨entry, hmem, rfl⟩
  obtain ⟨seconds, _, hseconds⟩ := List.mem_map.mp hknown
  exact ⟨seconds, hseconds.symm, h.reaches entry hmem seconds hseconds.symm⟩

theorem Played.wellFormed {start stop : Datetime} {finish : Int}
    {sequence : List (EventType × Option Int)} {events : List MovieEventIn}
    (h : Played start sequence events stop) (hsequence : WatchSequence finish sequence) :
    WellFormed finish events := by
  have hmem : ∀ event ∈ events, (event.eventType, event.progressSeconds) ∈ sequence := by
    intro event hevent
    rw [← h.entries]
    exact List.mem_map.mpr ⟨event, hevent, rfl⟩
  have hwatch : watchEvents events = events := by
    apply List.filter_eq_self.mpr
    intro event hevent
    exact hsequence.watch _ (hmem event hevent)
  have htypes : events.map (·.eventType) = sequence.map Prod.fst := by
    rw [← h.entries, List.map_map]
    rfl
  have hprogress : events.map (·.progressSeconds) = (sequence.filterMap Prod.snd).map some := by
    rw [← hsequence.known, ← h.entries, List.map_map]
    rfl
  constructor
  · exact h.times
  · refine ⟨_, hprogress, hsequence.increasing.imp fun hlt => hlt.le, ?_⟩
    intro n hn
    obtain ⟨entry, hentry, hseconds⟩ := List.mem_filterMap.mp hn
    exact (hsequence.reaches entry hentry n hseconds).atMost
  · rw [hwatch]
    exact ⟨_, hprogress, hsequence.increasing⟩
  · rw [hwatch, htypes]
    exact hsequence.form
  · rw [hwatch]
    intro event hevent seconds hseconds
    exact hsequence.reaches _ (hmem event hevent) seconds hseconds
  · exact h.valid

theorem watchEvents_append (events : List MovieEventIn) {event : MovieEventIn}
    (h : MovieEventIn.requiresProgress event.eventType = false) :
    watchEvents (events ++ [event]) = watchEvents events := by
  rw [watchEvents, List.filter_append, List.filter_singleton, h]
  exact List.append_nil _

/-- The event that likes the film has the progress of the last one. -/
theorem WellFormed.liked {finish : Int} {events : List MovieEventIn} {last event : MovieEventIn}
    {timestamp : Datetime} (h : WellFormed finish events) (hlast : events.getLast? = some last)
    (hevent : IsEvent .liked timestamp last.progressSeconds event)
    (htime : ∀ earlier ∈ events, earlier.timestamp.wall < timestamp.wall) :
    WellFormed finish (events ++ [event]) := by
  have hwatch : watchEvents (events ++ [event]) = watchEvents events := by
    apply watchEvents_append
    rw [hevent.eventType]
    rfl
  obtain ⟨before, rfl⟩ := List.getLast?_eq_some_iff.mp hlast
  obtain ⟨seconds, hseconds, hincreasing, hatMost⟩ := h.progress
  constructor
  · apply List.pairwise_append.mpr
    refine ⟨h.times, List.pairwise_singleton _ _, ?_⟩
    intro earlier hearlier later hlater
    rw [List.mem_singleton.mp hlater, hevent.timestamp]
    exact htime earlier hearlier
  · have hsplit := hseconds.symm
    rw [List.map_append, List.map_eq_append_iff] at hsplit
    obtain ⟨earlier, final, rfl, _, hfinal⟩ := hsplit
    obtain ⟨n, rfl, hn⟩ := List.map_eq_singleton_iff.mp hfinal
    refine ⟨earlier ++ [n] ++ [n], ?_, ?_, ?_⟩
    · have hlike : [event].map (·.progressSeconds) = [n].map some := by
        simp only [List.map_cons, List.map_nil, hevent.progressSeconds, hn]
      rw [List.map_append, hseconds, hlike, ← List.map_append]
    · apply List.pairwise_append.mpr
      refine ⟨hincreasing, List.pairwise_singleton _ _, ?_⟩
      intro m hm n' hn'
      rw [List.mem_singleton.mp hn']
      rcases List.mem_append.mp hm with hm | hm
      · exact (List.pairwise_append.mp hincreasing).2.2 m hm n (List.mem_singleton_self n)
      · exact (List.mem_singleton.mp hm).le
    · intro m hm
      rcases List.mem_append.mp hm with hm | hm
      · exact hatMost m hm
      · rw [List.mem_singleton.mp hm]
        exact hatMost n (List.mem_append_right _ (List.mem_singleton_self n))
  · rw [hwatch]
    exact h.watch
  · rw [hwatch]
    exact h.form
  · rw [hwatch]
    exact h.reaches
  · intro event' hmem
    rcases List.mem_append.mp hmem with hmem | hmem
    · exact h.valid event' hmem
    · rw [List.mem_singleton.mp hmem]
      exact hevent.valid

/-- The search before the session has no progress. -/
theorem WellFormed.searched {finish : Int} {events : List MovieEventIn} {event : MovieEventIn}
    {timestamp : Datetime} (h : WellFormed finish events) (hfinish : 0 ≤ finish)
    (hevent : IsEvent .searched timestamp (some 0) event)
    (htime : ∀ later ∈ events, timestamp.wall < later.timestamp.wall) :
    WellFormed finish (event :: events) := by
  have hwatch : watchEvents (event :: events) = watchEvents events := by
    apply List.filter_cons_of_neg
    rw [hevent.eventType]
    nofun
  obtain ⟨seconds, hseconds, hincreasing, hatMost⟩ := h.progress
  constructor
  · apply List.pairwise_cons.mpr
    refine ⟨fun later hlater => ?_, h.times⟩
    rw [hevent.timestamp]
    exact htime later hlater
  · refine ⟨0 :: seconds, ?_, ?_, ?_⟩
    · rw [List.map_cons, hseconds, hevent.progressSeconds, List.map_cons]
    · apply List.pairwise_cons.mpr
      refine ⟨fun n hn => ?_, hincreasing⟩
      have hmem : some n ∈ events.map (·.progressSeconds) := by
        rw [hseconds]
        exact List.mem_map.mpr ⟨n, hn, rfl⟩
      obtain ⟨event', hevent', hn'⟩ := List.mem_map.mp hmem
      exact MovieEventIn.progress_of_validate (h.valid event' hevent') hn'
    · intro n hn
      rcases List.mem_cons.mp hn with rfl | hn
      · exact hfinish
      · exact hatMost n hn
  · rw [hwatch]
    exact h.watch
  · rw [hwatch]
    exact h.form
  · rw [hwatch]
    exact h.reaches
  · intro event' hmem
    rcases List.mem_cons.mp hmem with rfl | hmem
    · exact hevent.valid
    · exact h.valid event' hmem

theorem append_ne_empty {first : String} (h : first ≠ "") (second : String) :
    first ++ second ≠ "" := by
  intro heq
  apply h
  have hlist : first.toList ++ second.toList = [] := by
    rw [← String.toList_append, heq]
    rfl
  exact String.toList_eq_nil_iff.mp (List.append_eq_nil_iff.mp hlist).1

theorem ne_empty_of_mem_users {userID : String} (h : userID ∈ users) : userID ≠ "" := by
  obtain ⟨index, _, rfl⟩ := List.mem_map.mp h
  exact append_ne_empty (by decide) _

theorem ne_empty_of_mem_movies {movieID : String} (h : movieID ∈ movies) : movieID ≠ "" := by
  obtain ⟨index, _, rfl⟩ := List.mem_map.mp h
  exact append_ne_empty (by decide) _

theorem ne_empty_of_mem_searchTerms {term : String} (h : term ∈ searchTerms) : term ≠ "" := by
  have hall : ∀ term ∈ searchTerms, term ≠ "" := by decide
  exact hall term h

/-- What the generator returns, or why it raises. -/
def Outcome (clock : Datetime) (finish : Int) (result : Except GeneratorError (List MovieEventIn)) :
    Prop :=
  (∃ events, result = .ok events ∧ WellFormed finish events) ∨
    (result = .error .overflow ∧ ¬ RoomAround clock)

section Build

variable {clock : Datetime} {finish : Int} {session : SessionFields}

theorem meets_like (hsession : session.Named) {events : List MovieEventIn} {last : MovieEventIn}
    (hevents : WellFormed finish events) (hlast : events.getLast? = some last)
    {currentTime : Datetime} (hutc : currentTime.offset = some 0)
    (hend : ∀ event ∈ events, event.timestamp.wall < currentTime.wall)
    {next : List MovieEventIn → Generator (List MovieEventIn)}
    {post : Except GeneratorError (List MovieEventIn) → Prop}
    (hnext : ∀ event, WellFormed finish (events ++ [event]) →
      currentTime.wall ≤ event.timestamp.wall →
      (next (events ++ [event])).Meets (InRange clock finish) NonemptyRange post)
    (herror : 253402300799999999 < currentTime.wall + 180000000 → post (.error .overflow)) :
    (like session events currentTime >>= next).Meets (InRange clock finish) NonemptyRange
      post := by
  have hearliest := currentTime.earliest
  rw [like, Program.bind_assoc]
  apply meets_randint (by omega)
  intro delay hdelay hdelay' _
  rw [Program.bind_assoc]
  apply meets_addSeconds
  · intro timestamp hwall hoffset
    have hreturn : lastEvent events = .ret last := by rw [lastEvent, hlast]
    have hacceptable : Acceptable .liked timestamp last.progressSeconds none := by
      constructor
      · exact hoffset.trans hutc
      · intro seconds hseconds
        have hmem : last ∈ events := List.mem_of_getLast? hlast
        exact MovieEventIn.progress_of_validate (hevents.valid last hmem) hseconds
      · nofun
      · nofun
    rw [hreturn, Program.ret_bind, Program.bind_assoc]
    apply meets_newEvent hsession hacceptable
    intro event hevent
    apply hnext
    · apply hevents.liked hlast hevent
      intro earlier hearlier
      have := hend earlier hearlier
      omega
    · rw [hevent.timestamp]
      omega
  · intro hout
    apply herror
    omega

theorem meets_search (hsession : session.Named) {events : List MovieEventIn}
    (hevents : WellFormed finish events) (hfinish : 0 ≤ finish) {baseTime : Datetime}
    (hutc : baseTime.offset = some 0)
    (hstart : ∀ event ∈ events, baseTime.wall ≤ event.timestamp.wall)
    {post : Except GeneratorError (List MovieEventIn) → Prop}
    (hpost : ∀ event, WellFormed finish (event :: events) → post (.ok (event :: events)))
    (herror : baseTime.wall - 30000000 < -62135596800000000 → post (.error .overflow)) :
    (search session events baseTime).Meets (InRange clock finish) NonemptyRange post := by
  have hlatest := baseTime.latest
  apply meets_addSeconds
  · intro timestamp hwall hoffset
    refine ⟨List.cons_ne_nil _ _, fun query hquery => ?_⟩
    have hacceptable : Acceptable .searched timestamp (some 0) (some query) := by
      constructor
      · exact hoffset.trans hutc
      · intro seconds hseconds
        rw [← Option.some.inj hseconds]
      · nofun
      · intro _
        exact ne_empty_of_mem_searchTerms hquery
    apply meets_newEvent hsession hacceptable
    intro event hevent
    apply hpost
    apply hevents.searched hfinish hevent
    intro later hlater
    have := hstart later hlater
    omega
  · intro hout
    apply herror
    omega

theorem Played.getLast? {start stop : Datetime} {sequence : List (EventType × Option Int)}
    {events : List MovieEventIn} (h : Played start sequence events stop)
    (hsequence : WatchSequence finish sequence) : ∃ last, events.getLast? = some last := by
  have hne : events ≠ [] := by
    rintro rfl
    exact hsequence.nonempty h.entries.symm
  exact ⟨_, List.getLast?_eq_some_getLast hne⟩

theorem WatchSequence.finish_nonneg {sequence : List (EventType × Option Int)}
    (h : WatchSequence finish sequence) : 0 ≤ finish := by
  obtain ⟨entry, hentry⟩ := List.exists_mem_of_ne_nil sequence h.nonempty
  obtain ⟨seconds, _, hreaches⟩ := h.seconds_of_mem hentry
  exact le_trans hreaches.nonneg hreaches.atMost

theorem meets_search_or_not (hsession : session.Named) {events : List MovieEventIn}
    (hevents : WellFormed finish events) (hfinish : 0 ≤ finish) (hutc : clock.offset = some 0)
    (hstart : ∀ event ∈ events, clock.wall ≤ event.timestamp.wall) :
    (chance (65 / 100) >>= fun searched =>
      if searched then search session events clock else return events).Meets
        (InRange clock finish) NonemptyRange (Outcome clock finish) := by
  apply meets_chance
  intro searched
  cases searched with
  | false => exact Or.inl ⟨events, rfl, hevents⟩
  | true =>
      apply meets_search hsession hevents hfinish hutc hstart
      · intro event hwellFormed
        exact Or.inl ⟨_, rfl, hwellFormed⟩
      · intro hearly
        refine Or.inr ⟨rfl, fun hroom => ?_⟩
        have := hroom.1
        omega

/-- Whatever the draws give within their ranges, no range is empty, and the events are
    well formed, unless the clock is at an end of the range of `datetime`. -/
theorem synthetic_sessions_well_formed (clock : Datetime) (finish : Int) :
    buildSyntheticSequence.Meets (InRange clock finish) NonemptyRange
      (Outcome clock finish) := by
  refine ⟨List.cons_ne_nil _ _, fun userID huser => ⟨List.cons_ne_nil _ _, fun movieID hmovie =>
    ⟨List.cons_ne_nil _ _, fun deviceType _ => ⟨trivial, fun sessionUuid _ => ⟨trivial, ?_⟩⟩⟩⟩⟩
  rintro baseTime ⟨rfl, hutc⟩
  have hsession : SessionFields.Named
      ⟨userID, movieID, deviceType, "session-" ++ uuidText sessionUuid⟩ :=
    ⟨ne_empty_of_mem_users huser, ne_empty_of_mem_movies hmovie, append_ne_empty (by decide) _⟩
  apply Program.meets_bind (meets_sessionEvents baseTime finish)
  · rintro sequence ⟨_, ⟨⟩, hsequence⟩
    have hshort := hsequence.short
    have hfinish := hsequence.finish_nonneg
    have hwatch : ∀ entry ∈ sequence, MovieEventIn.requiresProgress entry.1 = true ∧
        ∃ seconds, entry.2 = some seconds ∧ 0 ≤ seconds := by
      intro entry hentry
      obtain ⟨seconds, hseconds, hreaches⟩ := hsequence.seconds_of_mem hentry
      exact ⟨hsequence.watch entry hentry, seconds, hseconds, hreaches.nonneg⟩
    have hlate : 253402300799999999 < baseTime.wall + 1260000000 →
        Outcome baseTime finish (.error .overflow) := by
      intro hlate
      refine Or.inr ⟨rfl, fun hroom => ?_⟩
      have := hroom.2
      omega
    apply meets_watchSession hsession hutc hwatch
    · intro events stop hplayed
      have hevents := hplayed.wellFormed hsequence
      have hnear := hplayed.near
      obtain ⟨last, hlast⟩ := hplayed.getLast? hsequence
      apply meets_chance
      intro liked
      cases liked with
      | false => exact meets_search_or_not hsession hevents hfinish hutc hplayed.since
      | true =>
          apply meets_like hsession hevents hlast hplayed.utc hplayed.ended
          · intro event hliked hafter
            apply meets_search_or_not hsession hliked hfinish hutc
            intro event' hmem
            rcases List.mem_append.mp hmem with hmem | hmem
            · exact hplayed.since event' hmem
            · rw [List.mem_singleton.mp hmem]
              exact le_trans hplayed.after hafter
          · intro hend
            apply hlate
            omega
    · intro hend
      apply hlate
      omega
  · rintro error ⟨_, ⟨⟩, _⟩

end Build

end SoaHomework.MovieProducer

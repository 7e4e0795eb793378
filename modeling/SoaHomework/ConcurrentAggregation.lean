import SoaHomework.AggregationRuns
import SoaHomework.FailedAggregation

/-!
# Concurrent aggregations

Aggregations of one date that overlap. Each deletes the ranking of the date and
inserts its own, computed from the events of that moment. `FINAL` merges the
rows of two rankings only where rank and movie agree, so what is left is one
ranking when an `INSERT` that finds rows extends their ranking or is extended by
it (`concurrent_rankings_valid`).
-/

namespace SoaHomework.MovieAnalytics

open StatementProgram StatementProgram.Program

/-! ## What an aggregation does to the ranking -/

/-- What a command does to the rows of a date in `daily_top_movies`. -/
inductive Access where
  | delete
  | insert
  | other
deriving DecidableEq, Repr

def Command.access (date : Date) : Command → Access
  | .deleteFrom .dailyTopMovies date' => if date' = date then .delete else .other
  | .insertInto .dailyTopMovies date' _ => if date' = date then .insert else .other
  | _ => .other

/-- How far a request is with the ranking of a date. After an error nothing follows. -/
inductive Phase where
  | untouched
  | deleted
  | inserted
  | broken
deriving DecidableEq, Repr

def advance (date : Date) (aggregates : Bool) (c : Command) (answer : Reply c) (phase : Phase) :
    Option Phase :=
  match c.access date, phase with
  | .other, .untouched => some .untouched
  | .other, .inserted => some .inserted
  | .delete, .untouched =>
      if aggregates then some (if answer.isOk then .deleted else .broken) else none
  | .insert, .deleted => some (if answer.isOk then .inserted else .broken)
  | _, _ => none

/-- An aggregation that can be one of the date: the date is given, or computed when it runs. -/
def Request.mayRank (date : Date) : Request → Bool
  | .aggregate (some targetDate) => decide (targetDate = date)
  | .aggregate none | .aggregateLatest => true
  | .export _ | .exportLatest => false

/-- An aggregation of the date ends with its own ranking inserted. -/
def Returned (date : Date) (phase : Phase) : Response → Prop
  | .aggregated result => (phase = .untouched ∨ phase = .inserted) ∧
      (result.metricDate = date → phase = .inserted)
  | .exported _ => phase = .untouched

section Obeys

variable {date target : Date} {computedAt : Nat} {aggregates : Bool}

/-- The command leaves the ranking of the date alone. -/
abbrev Command.Spares (date : Date) (c : Command) : Prop := c.access date = .other

theorem advance_spares {c : Command} (h : c.Spares date) (answer : Reply c) {phase : Phase}
    (hphase : phase = .untouched ∨ phase = .inserted) :
    advance date aggregates c answer phase = some phase := by
  rcases hphase with rfl | rfl
  · simp only [advance, h]
  · simp only [advance, h]

/-- Commands that leave the ranking alone. -/
theorem obeys_spares {α : Type} {p : Job α} (hp : p.Uses (Command.Spares date)) {phase : Phase}
    (hphase : phase = .untouched ∨ phase = .inserted) :
    p.Obeys (advance date aggregates) (fun phase' _ => phase' = phase) phase :=
  obeys_of_uses hp fun _ answer hop => advance_spares hop answer hphase

theorem uses_rewrite {table : MetricTable} (h : table ≠ .dailyTopMovies ∨ target ≠ date) :
    (rewrite table target computedAt).Uses (Command.Spares date) := by
  have hdelete : Command.Spares date (.deleteFrom table target) := by
    rcases h with htable | htarget
    · cases table with
      | dailyTopMovies => exact absurd rfl htable
      | _ => rfl
    · cases table with
      | dailyTopMovies => exact if_neg htarget
      | _ => rfl
  have hinsert : Command.Spares date (.insertInto table target computedAt) := by
    rcases h with htable | htarget
    · cases table with
      | dailyTopMovies => exact absurd rfl htable
      | _ => rfl
    · cases table with
      | dailyTopMovies => exact if_neg htarget
      | _ => rfl
  exact uses_bind (uses_command hdelete) fun _ => uses_command hinsert

theorem uses_rewriteTables {tables : List MetricTable} (h : target ≠ date) :
    (rewriteTables target computedAt tables).Uses (Command.Spares date) := by
  induction tables with
  | nil => trivial
  | cons table tables ih => exact uses_bind (uses_rewrite (Or.inr h)) fun _ => ih

/-- The rewrite of the ranking itself. -/
theorem obeys_rewriteTopMovies :
    (rewrite .dailyTopMovies date computedAt).Obeys (advance date true)
      (fun phase _ => phase = .inserted) .untouched := by
  have hdelete : Command.access date (.deleteFrom .dailyTopMovies date) = .delete := if_pos rfl
  have hinsert : Command.access date (.insertInto .dailyTopMovies date computedAt) = .insert :=
    if_pos rfl
  intro answer
  cases answer with
  | error failure =>
      refine ⟨.broken, ?_, trivial⟩
      simp only [advance, hdelete]
      rfl
  | ok value =>
      refine ⟨.deleted, ?_, ?_⟩
      · simp only [advance, hdelete]
        rfl
      intro answer'
      cases answer' with
      | error failure =>
          refine ⟨.broken, ?_, trivial⟩
          simp only [advance, hinsert]
          rfl
      | ok value =>
          refine ⟨.inserted, ?_, rfl⟩
          simp only [advance, hinsert]
          rfl

theorem obeys_publish {processedRows : Nat} {phase : Phase}
    (hphase : phase = .untouched ∨ phase = .inserted) :
    (publish target computedAt processedRows).Obeys (advance date aggregates)
      (fun phase' result => phase' = phase ∧ result.metricDate = target) phase := by
  apply obeys_bind (obeys_spares (uses_buildMetricPayload (fun _ => rfl) computedAt) hphase)
  rintro metrics _ rfl
  have hupsert : Command.Spares date (.upsert target metrics) := rfl
  apply obeys_bind (obeys_spares (uses_upsertMetrics hupsert) hphase)
  rintro _ _ rfl
  exact ⟨rfl, rfl⟩

theorem obeys_aggregateForDate (haggregates : target = date → aggregates = true) :
    (aggregateForDate target).Obeys (advance date aggregates)
      (fun phase result => Returned date phase (.aggregated result)) .untouched := by
  have hspares : ∀ {table} (_ : table ≠ .dailyTopMovies) {computedAt : Nat} {phase : Phase}
      (_ : phase = .untouched ∨ phase = .inserted),
      (rewrite table target computedAt).Obeys (advance date aggregates)
        (fun phase' _ => phase' = phase) phase :=
    fun htable _ _ hphase => obeys_spares (uses_rewrite (Or.inl htable)) hphase
  rw [aggregateForDate_eq]
  apply obeys_bind (obeys_spares (uses_command rfl) (Or.inl rfl))
  rintro processedRows _ rfl
  apply obeys_bind (obeys_spares (uses_command rfl) (Or.inl rfl))
  rintro now _ rfl
  by_cases htarget : target = date
  · subst htarget
    obtain rfl := haggregates rfl
    have hrewrites : (rewriteTables target (now / 1000000) metricTables).Obeys
        (advance target true) (fun phase _ => phase = .inserted) .untouched := by
      apply obeys_bind (hspares (by decide) (Or.inl rfl))
      rintro _ _ rfl
      apply obeys_bind (hspares (by decide) (Or.inl rfl))
      rintro _ _ rfl
      apply obeys_bind obeys_rewriteTopMovies
      rintro _ _ rfl
      apply obeys_bind (hspares (by decide) (Or.inr rfl))
      rintro _ _ rfl
      apply obeys_bind (hspares (by decide) (Or.inr rfl))
      rintro _ _ rfl
      apply obeys_bind (hspares (by decide) (Or.inr rfl))
      rintro _ _ rfl
      apply obeys_bind (hspares (by decide) (Or.inr rfl))
      rintro _ _ rfl
      rfl
    apply obeys_bind hrewrites
    rintro _ _ rfl
    apply (obeys_publish (Or.inr rfl)).mono
    rintro _ result ⟨rfl, _⟩
    exact ⟨Or.inr rfl, fun _ => rfl⟩
  · apply obeys_bind (obeys_spares (uses_rewriteTables htarget) (Or.inl rfl))
    rintro _ _ rfl
    apply (obeys_publish (Or.inl rfl)).mono
    rintro _ result ⟨rfl, hresult⟩
    exact ⟨Or.inl rfl, fun hdate => absurd (hresult.symm.trans hdate) htarget⟩

theorem obeys_targetOf (requested : Option Date) :
    (targetOf requested).Obeys (advance date aggregates)
      (fun phase target => phase = .untouched ∧ ∀ given, requested = some given → target = given)
      .untouched := by
  cases requested with
  | some given => exact ⟨rfl, fun _ => Option.some.inj⟩
  | none =>
      apply obeys_bind (obeys_spares (uses_command rfl) (Or.inl rfl))
      rintro _ _ rfl
      exact ⟨rfl, fun _ heq => by cases heq⟩

theorem uses_exportForDate : (exportForDate target).Uses (Command.Spares date) := by
  apply uses_retry
  have hfetch : Command.Spares date (.fetch target) := rfl
  apply uses_bind (uses_command hfetch)
  intro rows
  have hput : Command.Spares date (.putObject target (exportFrame target rows)) := rfl
  exact uses_bind (uses_command hput) fun _ => trivial

theorem obeys_handle (request : Request) :
    (handle request).Obeys (advance date (request.mayRank date)) (Returned date) .untouched := by
  have haggregate : ∀ requested, (do
      let target ← targetOf requested
      let result ← aggregateForDate target
      return .aggregated result : Job Response).Obeys
        (advance date (Request.mayRank date (.aggregate requested))) (Returned date)
        .untouched := by
    intro requested
    apply obeys_bind (obeys_targetOf requested)
    rintro target _ ⟨rfl, htarget⟩
    have haggregates : target = date → Request.mayRank date (.aggregate requested) = true := by
      rintro rfl
      cases requested with
      | none => rfl
      | some given => exact decide_eq_true (htarget given rfl).symm
    apply obeys_bind (obeys_aggregateForDate haggregates)
    intro result phase hresult
    exact hresult
  have hexport : ∀ requested, (do
      let target ← targetOf requested
      let target ← exportForDate target
      return .exported target : Job Response).Obeys (advance date false) (Returned date)
        .untouched := by
    intro requested
    apply obeys_bind (obeys_targetOf requested)
    rintro target _ ⟨rfl, _⟩
    apply obeys_bind (obeys_spares uses_exportForDate (Or.inl rfl))
    rintro _ _ rfl
    rfl
  cases request with
  | aggregate targetDate => exact haggregate targetDate
  | aggregateLatest => exact haggregate none
  | «export» targetDate => exact hexport targetDate
  | exportLatest => exact hexport none

end Obeys

/-! ## The rankings that a run inserts -/

/-- An executed `INSERT` into `daily_top_movies`: the call, and the events and the time
    from which its rows are computed. -/
structure Insertion where
  call : Nat
  log : EventLog
  computedAt : Nat

def Insertion.rows (date : Date) (insertion : Insertion) : List DailyTopMovie :=
  select .dailyTopMovies insertion.log date insertion.computedAt

def insertion? (date : Date) (pool : AnalyticsPool) : AnalyticsEvent → Option Insertion
  | .step i fate =>
      match pool.program? i with
      | some (.step (.insertInto .dailyTopMovies date' computedAt) _) =>
          if date' = date ∧ fate ≠ .failed then some ⟨i, pool.shared.movieEvents, computedAt⟩
          else none
      | _ => none
  | _ => none

def insertions (date : Date) (pool : AnalyticsPool) : List AnalyticsEvent → List Insertion
  | [] => []
  | event :: events =>
      (insertion? date pool event).toList ++
        match service.next pool event with
        | some pool' => insertions date pool' events
        | none => []

/-- Each of the rows has the rank and the movie of an inserted one that is not older. -/
def extended (rows inserted : List DailyTopMovie) : Bool :=
  rows.all fun row => inserted.any fun later =>
    MetricTable.sameKey .dailyTopMovies row later && decide (row.computedAt ≤ later.computedAt)

/-- Each inserted row has the rank and the movie of an existing one that is newer. -/
def outdated (rows inserted : List DailyTopMovie) : Bool :=
  inserted.all fun later => rows.any fun row =>
    MetricTable.sameKey .dailyTopMovies row later && decide (later.computedAt < row.computedAt)

/-- An `INSERT` finds a ranking that it extends, or one that extends it. -/
def extending (date : Date) (pool : AnalyticsPool) (event : AnalyticsEvent) : Bool :=
  match insertion? date pool event with
  | some insertion =>
      extended (pool.shared.rows .dailyTopMovies date) (insertion.rows date) ||
        outdated (pool.shared.rows .dailyTopMovies date) (insertion.rows date)
  | none => true

/-! ## The invariant -/

/-- What `FINAL` keeps of the rows of the date. -/
def Analytics.finalRanking (s : Analytics) (date : Date) : List DailyTopMovie :=
  ReplacingTable.final (MetricTable.sameKey .dailyTopMovies) (MetricTable.version .dailyTopMovies)
    (s.rows .dailyTopMovies date)

/-- The rows of the date have been deleted or inserted. -/
def Analytics.touched (s : Analytics) (date : Date) : Prop :=
  s.source .dailyTopMovies date ≠ .unknown

abbrev AnalyticsThread := Thread Command Reply Failure Response Request

/-- A request that may have deleted the rows of the date and has not inserted its own. -/
def Hanging (date : Date) (request : Request) : Status Command Reply Failure Response → Prop
  | .running program => ∃ phase, (phase = .deleted ∨ phase = .broken) ∧
      program.Obeys (advance date (request.mayRank date)) (Returned date) phase
  | .answered result => ∃ failure, result = .error failure
  | .stopped => True

/-- The rows of the date are gone while an aggregation hangs, or they are those of one of
    the insertions `known`. -/
structure Rankings (known : Insertion → Prop) (date : Date) (pool : AnalyticsPool) : Prop where
  running : ∀ i request program, pool.Runs i request program → ∃ phase,
    program.Obeys (advance date (request.mayRank date)) (Returned date) phase ∧
      (phase = .deleted ∨ phase = .inserted → pool.shared.touched date)
  answered : ∀ i request result, pool.Answered i request (.ok (.aggregated result)) →
    result.metricDate = date → pool.shared.touched date
  deleted : pool.shared.source .dailyTopMovies date = .deleted →
    pool.shared.rows .dailyTopMovies date = [] ∧
      ∃ (i : Nat) (thread : AnalyticsThread), pool.threads[i]? = some thread ∧
        thread.request.mayRank date = true ∧ Hanging date thread.request thread.status
  selected : ∀ log computedAt, pool.shared.source .dailyTopMovies date = .selected log computedAt →
    ∃ insertion, known insertion ∧ pool.shared.finalRanking date = insertion.rows date

section Step

variable {known known' : Insertion → Prop} {date : Date} {pool : AnalyticsPool} {i : Nat}
  {request : Request} {program : Job Response}

/-- Request `i` has changed its status and perhaps the ranking. -/
theorem Rankings.update (h : Rankings known date pool) (hthread : pool.Runs i request program)
    {status : Status Command Reply Failure Response} {s : Analytics}
    (htouched : pool.shared.touched date → s.touched date)
    (hrunning : ∀ program', status = .running program' → ∃ phase,
      program'.Obeys (advance date (request.mayRank date)) (Returned date) phase ∧
        (phase = .deleted ∨ phase = .inserted → s.touched date))
    (hanswered : ∀ result, status = .answered (.ok (.aggregated result)) →
      result.metricDate = date → s.touched date)
    (hdeleted : s.source .dailyTopMovies date = .deleted → s.rows .dailyTopMovies date = [] ∧
      (request.mayRank date = true ∧ Hanging date request status ∨
        pool.shared.source .dailyTopMovies date = .deleted ∧
          (Hanging date request (.running program) → Hanging date request status)))
    (hselected : ∀ log computedAt, s.source .dailyTopMovies date = .selected log computedAt →
      ∃ insertion, known' insertion ∧ s.finalRanking date = insertion.rows date) :
    Rankings known' date (pool.update i status s) where
  running j request' program' hruns := by
    rcases Service.thread_update hthread hruns with ⟨rfl, rfl, hstatus⟩ | ⟨_, hbefore⟩
    · exact hrunning program' hstatus.symm
    · obtain ⟨phase, hobeys, hphase⟩ := h.running j request' program' hbefore
      exact ⟨phase, hobeys, fun hin => htouched (hphase hin)⟩
  answered j request' result hruns hdate := by
    rcases Service.thread_update hthread hruns with ⟨rfl, _, hstatus⟩ | ⟨_, hbefore⟩
    · exact hanswered result hstatus.symm hdate
    · exact htouched (h.answered j request' result hbefore hdate)
  deleted hsource := by
    obtain ⟨hrows, ⟨haggregates, hhanging⟩ | ⟨hbefore, hstays⟩⟩ := hdeleted hsource
    · exact ⟨hrows, i, _, Service.update_self hthread status s, haggregates, hhanging⟩
    · obtain ⟨_, j, thread, hj, haggregates, hhanging⟩ := h.deleted hbefore
      by_cases hij : i = j
      · subst hij
        obtain rfl := Option.some.inj (hthread.symm.trans hj)
        exact ⟨hrows, i, _, Service.update_self hthread status s, haggregates, hstays hhanging⟩
      · exact ⟨hrows, j, thread, (Service.update_other hij status s).trans hj, haggregates,
          hhanging⟩
  selected := hselected

/-! ### Commands -/

theorem spared {c : Command} (hc : c.Spares date) {fate : Fate} {answer : Reply c}
    {s s' : Analytics} (h : exec i c fate s = some (answer, s')) :
    s'.rows .dailyTopMovies date = s.rows .dailyTopMovies date ∧
      s'.source .dailyTopMovies date = s.source .dailyTopMovies date := by
  have hkept : ∀ (before : Analytics) {α : Type} {value : α} {after : Analytics}
      {answer' : Except Failure α}, some (settle fate value before after) = some (answer', s') →
      after.rows .dailyTopMovies date = before.rows .dailyTopMovies date ∧
        after.source .dailyTopMovies date = before.source .dailyTopMovies date →
      s'.rows .dailyTopMovies date = before.rows .dailyTopMovies date ∧
        s'.source .dailyTopMovies date = before.source .dailyTopMovies date := by
    intro before α value after answer' hsettle hafter
    cases fate with
    | done =>
        cases hsettle
        exact hafter
    | failed =>
        cases hsettle
        exact ⟨rfl, rfl⟩
    | lost =>
        cases hsettle
        exact hafter
  cases c with
  | now =>
      cases h
      exact ⟨rfl, rfl⟩
  | countRawRows date' => exact hkept (s.began i date') h ⟨rfl, rfl⟩
  | selectFinal table date' => exact hkept s h ⟨rfl, rfl⟩
  | upsert date' payload => exact hkept s h ⟨rfl, rfl⟩
  | fetch date' => exact hkept s h ⟨rfl, rfl⟩
  | putObject date' rows => exact hkept s h ⟨rfl, rfl⟩
  | deleteFrom table date' =>
      have hother : MetricTable.dailyTopMovies ≠ table ∨ date ≠ date' := by
        by_contra hsame
        push Not at hsame
        obtain ⟨rfl, rfl⟩ := hsame
        rw [Command.Spares, Command.access, if_pos rfl] at hc
        cases hc
      exact hkept s h ⟨deleted_rows_other s hother, setSource_other hother⟩
  | insertInto table date' computedAt =>
      have hother : MetricTable.dailyTopMovies ≠ table ∨ date ≠ date' := by
        by_contra hsame
        push Not at hsame
        obtain ⟨rfl, rfl⟩ := hsame
        rw [Command.Spares, Command.access, if_pos rfl] at hc
        cases hc
      exact hkept s h ⟨inserted_rows_other s computedAt hother, setSource_other hother⟩

theorem eq_of_access_delete {c : Command} (h : c.access date = .delete) :
    c = .deleteFrom .dailyTopMovies date := by
  cases c with
  | deleteFrom table date' =>
      cases table with
      | dailyTopMovies =>
          by_cases hdate : date' = date
          · rw [hdate]
          · simp only [Command.access, if_neg hdate] at h
            cases h
      | _ => cases h
  | insertInto table date' computedAt =>
      cases table with
      | dailyTopMovies =>
          simp only [Command.access] at h
          split at h
          · cases h
          · cases h
      | _ => cases h
  | _ => cases h

theorem eq_of_access_insert {c : Command} (h : c.access date = .insert) :
    ∃ computedAt, c = .insertInto .dailyTopMovies date computedAt := by
  cases c with
  | insertInto table date' computedAt =>
      cases table with
      | dailyTopMovies =>
          by_cases hdate : date' = date
          · exact ⟨computedAt, by rw [hdate]⟩
          · simp only [Command.access, if_neg hdate] at h
            cases h
      | _ => cases h
  | deleteFrom table date' =>
      cases table with
      | dailyTopMovies =>
          simp only [Command.access] at h
          split at h
          · cases h
          · cases h
      | _ => cases h
  | _ => cases h

/-! ### Steps -/

section Exec

variable {c : Command} {next : Reply c → Job Response} {fate : Fate} {answer : Reply c}
  {s : Analytics}

/-- An automaton that has advanced did so from a phase that fits the command. -/
theorem advance_other (hc : c.access date = .other) {aggregates : Bool} {phase phase' : Phase}
    (h : advance date aggregates c answer phase = some phase') :
    phase' = phase ∧ (phase = .untouched ∨ phase = .inserted) := by
  cases phase with
  | untouched =>
      simp only [advance, hc, Option.some.injEq] at h
      exact ⟨h.symm, Or.inl rfl⟩
  | inserted =>
      simp only [advance, hc, Option.some.injEq] at h
      exact ⟨h.symm, Or.inr rfl⟩
  | deleted =>
      simp only [advance, hc] at h
      cases h
  | broken =>
      simp only [advance, hc] at h
      cases h

theorem advance_delete (hc : c.access date = .delete) {aggregates : Bool} {phase phase' : Phase}
    (h : advance date aggregates c answer phase = some phase') :
    phase = .untouched ∧ aggregates = true ∧
      phase' = if answer.isOk then .deleted else .broken := by
  cases phase with
  | untouched =>
      simp only [advance, hc] at h
      split at h
      · exact ⟨rfl, ‹_›, (Option.some.inj h).symm⟩
      · cases h
  | inserted =>
      simp only [advance, hc] at h
      cases h
  | deleted =>
      simp only [advance, hc] at h
      cases h
  | broken =>
      simp only [advance, hc] at h
      cases h

theorem advance_insert (hc : c.access date = .insert) {aggregates : Bool} {phase phase' : Phase}
    (h : advance date aggregates c answer phase = some phase') :
    phase = .deleted ∧ phase' = if answer.isOk then .inserted else .broken := by
  cases phase with
  | deleted =>
      simp only [advance, hc, Option.some.injEq] at h
      exact ⟨rfl, h.symm⟩
  | untouched =>
      simp only [advance, hc] at h
      cases h
  | inserted =>
      simp only [advance, hc] at h
      cases h
  | broken =>
      simp only [advance, hc] at h
      cases h

/-- A hanging request has nothing left but its `INSERT`. -/
theorem access_of_hanging (answer : Reply c)
    (h : Hanging date request (.running (.step c next))) : c.access date = .insert := by
  obtain ⟨phase, hphase, hobeys⟩ := h
  obtain ⟨phase', hadvance, _⟩ := hobeys answer
  cases hc : c.access date with
  | insert => rfl
  | other =>
      obtain ⟨_, rfl | rfl⟩ := advance_other hc hadvance
      · rcases hphase with hphase | hphase
        · cases hphase
        · cases hphase
      · rcases hphase with hphase | hphase
        · cases hphase
        · cases hphase
  | delete =>
      obtain ⟨rfl, _⟩ := advance_delete hc hadvance
      rcases hphase with hphase | hphase
      · cases hphase
      · cases hphase

theorem insertion?_insert {computedAt : Nat}
    {next : Reply (.insertInto .dailyTopMovies date computedAt) → Job Response}
    (hthread : pool.Runs i request (.step (.insertInto .dailyTopMovies date computedAt) next))
    (hfate : fate ≠ .failed) :
    insertion? date pool (.step i fate) = some ⟨i, pool.shared.movieEvents, computedAt⟩ := by
  have hprogram := Service.program?_eq_some.mpr ⟨request, hthread⟩
  simp only [insertion?, hprogram]
  exact if_pos ⟨trivial, hfate⟩

theorem final_of_insertion (date : Date) (insertion : Insertion) :
    ReplacingTable.final (MetricTable.sameKey .dailyTopMovies)
      (MetricTable.version .dailyTopMovies) (insertion.rows date) = insertion.rows date :=
  ReplacingTable.final_eq_self (select_pairwise .dailyTopMovies _ _ _)

theorem inserted_ranking (s : Analytics) (date : Date) (computedAt : Nat) :
    (s.inserted .dailyTopMovies date computedAt).rows .dailyTopMovies date =
      s.rows .dailyTopMovies date ++ (Insertion.mk i s.movieEvents computedAt).rows date :=
  inserted_rows_self s .dailyTopMovies date computedAt

/-- An `INSERT` that extends the ranking it finds. -/
theorem finalRanking_of_extended {s : Analytics} {computedAt : Nat}
    (h : extended (s.rows .dailyTopMovies date)
      ((Insertion.mk i s.movieEvents computedAt).rows date) = true) :
    (s.inserted .dailyTopMovies date computedAt).finalRanking date =
      (Insertion.mk i s.movieEvents computedAt).rows date := by
  rw [Analytics.finalRanking, inserted_ranking (i := i), ReplacingTable.final_append_of_newer]
  · exact final_of_insertion date _
  · intro row hrow
    obtain ⟨later, hlater, hboth⟩ := List.any_eq_true.mp (List.all_eq_true.mp h row hrow)
    simp only [Bool.and_eq_true, decide_eq_true_eq] at hboth
    exact ⟨later, hlater, hboth⟩

/-- An `INSERT` that the ranking it finds extends. -/
theorem finalRanking_of_outdated {s : Analytics} {computedAt : Nat}
    (h : outdated (s.rows .dailyTopMovies date)
      ((Insertion.mk i s.movieEvents computedAt).rows date) = true) :
    (s.inserted .dailyTopMovies date computedAt).finalRanking date = s.finalRanking date := by
  rw [Analytics.finalRanking, inserted_ranking (i := i),
    ReplacingTable.final_append_of_older MetricTable.sameKey_symm MetricTable.sameKey_trans]
  · rfl
  · intro later hlater
    obtain ⟨row, hrow, hboth⟩ := List.any_eq_true.mp (List.all_eq_true.mp h later hlater)
    simp only [Bool.and_eq_true, decide_eq_true_eq] at hboth
    exact ⟨row, hrow, hboth⟩

/-- A command that leaves the ranking alone. -/
theorem Rankings.spare (h : Rankings known date pool) (hthread : pool.Runs i request (.step c next))
    (hexec : exec i c fate pool.shared = some (answer, s)) (hc : c.access date = .other)
    (himp : ∀ insertion, known insertion → known' insertion) :
    Rankings known' date (pool.update i (.running (next answer)) s) := by
  obtain ⟨hrows, hsource⟩ := spared hc hexec
  obtain ⟨phase, hobeys, hphase⟩ := h.running i request _ hthread
  obtain ⟨phase', hadvance, hnext⟩ := hobeys answer
  obtain ⟨rfl, _⟩ := advance_other hc hadvance
  have htouched : pool.shared.touched date → s.touched date := by
    intro hbefore
    rw [Analytics.touched, hsource]
    exact hbefore
  apply h.update hthread htouched
  · rintro program' hstatus
    cases hstatus
    exact ⟨phase', hnext, fun hin => htouched (hphase hin)⟩
  · intro result hstatus
    cases hstatus
  · intro hdeleted
    rw [hsource] at hdeleted
    refine ⟨hrows.trans (h.deleted hdeleted).1, Or.inr ⟨hdeleted, ?_⟩⟩
    intro hhanging
    have hinsert := access_of_hanging answer hhanging
    rw [hc] at hinsert
    cases hinsert
  · intro log computedAt hselected
    rw [hsource] at hselected
    obtain ⟨insertion, hknown, hfinal⟩ := h.selected log computedAt hselected
    refine ⟨insertion, himp insertion hknown, ?_⟩
    rw [Analytics.finalRanking, hrows]
    exact hfinal

/-- A `DELETE` of the ranking. -/
theorem Rankings.delete (h : Rankings known date pool)
    (hthread : pool.Runs i request (.step c next))
    (hexec : exec i c fate pool.shared = some (answer, s)) (hc : c.access date = .delete)
    (himp : ∀ insertion, known insertion → known' insertion) :
    Rankings known' date (pool.update i (.running (next answer)) s) := by
  obtain ⟨phase, hobeys, hphase⟩ := h.running i request _ hthread
  obtain ⟨phase', hadvance, hnext⟩ := hobeys answer
  obtain ⟨rfl, haggregates, hphase'⟩ := advance_delete hc hadvance
  obtain rfl := eq_of_access_delete hc
  have hexecuted : s = pool.shared.deleted .dailyTopMovies date ∨
      s = pool.shared ∧ answer.isOk = false := by
    cases fate with
    | done =>
        cases hexec
        exact Or.inl rfl
    | failed =>
        cases hexec
        exact Or.inr ⟨rfl, rfl⟩
    | lost =>
        cases hexec
        exact Or.inl rfl
  have hhanging : Hanging date request (.running (next answer)) := by
    refine ⟨phase', ?_, hnext⟩
    rw [hphase']
    split
    · exact Or.inl rfl
    · exact Or.inr rfl
  rcases hexecuted with rfl | ⟨rfl, herror⟩
  · have hsource : (pool.shared.deleted .dailyTopMovies date).source .dailyTopMovies date =
        .deleted := setSource_self pool.shared .dailyTopMovies date .deleted
    have htouched : (pool.shared.deleted .dailyTopMovies date).touched date := by
      rw [Analytics.touched, hsource]
      exact fun heq => by cases heq
    apply h.update hthread (fun _ => htouched)
    · rintro program' hstatus
      cases hstatus
      exact ⟨phase', hnext, fun _ => htouched⟩
    · intro result hstatus
      cases hstatus
    · intro _
      exact ⟨deleted_rows_self _ _ _, Or.inl ⟨haggregates, hhanging⟩⟩
    · intro log computedAt hselected
      rw [hsource] at hselected
      cases hselected
  · apply h.update hthread id
    · rintro program' hstatus
      cases hstatus
      refine ⟨phase', hnext, ?_⟩
      rw [hphase', herror]
      rintro (hin | hin)
      · cases hin
      · cases hin
    · intro result hstatus
      cases hstatus
    · intro hdeleted
      exact ⟨(h.deleted hdeleted).1, Or.inl ⟨haggregates, hhanging⟩⟩
    · intro log computedAt hselected
      obtain ⟨insertion, hknown, hfinal⟩ := h.selected log computedAt hselected
      exact ⟨insertion, himp insertion hknown, hfinal⟩

/-- An `INSERT` into the ranking. -/
theorem Rankings.insert (h : Rankings known date pool)
    (hthread : pool.Runs i request (.step c next))
    (hexec : exec i c fate pool.shared = some (answer, s)) (hc : c.access date = .insert)
    (hextending : extending date pool (.step i fate) = true) :
    Rankings (fun insertion => known insertion ∨
      insertion? date pool (.step i fate) = some insertion) date
      (pool.update i (.running (next answer)) s) := by
  obtain ⟨phase, hobeys, hphase⟩ := h.running i request _ hthread
  obtain ⟨phase', hadvance, hnext⟩ := hobeys answer
  obtain ⟨rfl, hphase'⟩ := advance_insert hc hadvance
  have hbefore := hphase (Or.inl rfl)
  obtain ⟨computedAt, rfl⟩ := eq_of_access_insert hc
  by_cases hfate : fate = .failed
  · subst hfate
    cases hexec
    apply h.update hthread id
    · rintro program' hstatus
      cases hstatus
      exact ⟨phase', hnext, fun _ => hbefore⟩
    · intro result hstatus
      cases hstatus
    · intro hdeleted
      exact ⟨(h.deleted hdeleted).1, Or.inr ⟨hdeleted, fun _ => ⟨phase', Or.inr hphase', hnext⟩⟩⟩
    · intro log computedAt' hselected
      obtain ⟨insertion, hknown, hfinal⟩ := h.selected log computedAt' hselected
      exact ⟨insertion, Or.inl hknown, hfinal⟩
  · have hinsertion := insertion?_insert hthread hfate
    have hs : s = pool.shared.inserted .dailyTopMovies date computedAt := by
      cases fate with
      | done =>
          cases hexec
          rfl
      | failed => exact absurd rfl hfate
      | lost =>
          cases hexec
          rfl
    subst hs
    have hsource : (pool.shared.inserted .dailyTopMovies date computedAt).source
        .dailyTopMovies date = .selected pool.shared.movieEvents computedAt :=
      setSource_self pool.shared .dailyTopMovies date _
    have htouched : (pool.shared.inserted .dailyTopMovies date computedAt).touched date := by
      rw [Analytics.touched, hsource]
      exact fun heq => by cases heq
    apply h.update hthread (fun _ => htouched)
    · rintro program' hstatus
      cases hstatus
      exact ⟨phase', hnext, fun _ => htouched⟩
    · intro result hstatus
      cases hstatus
    · intro hdeleted
      rw [hsource] at hdeleted
      cases hdeleted
    · intro _ _ _
      have hnew : extended (pool.shared.rows .dailyTopMovies date)
          ((Insertion.mk i pool.shared.movieEvents computedAt).rows date) = true →
          ∃ insertion, (known insertion ∨ insertion? date pool (.step i fate) = some insertion) ∧
            (pool.shared.inserted .dailyTopMovies date computedAt).finalRanking date =
              insertion.rows date :=
        fun hextended => ⟨_, Or.inr hinsertion, finalRanking_of_extended hextended⟩
      simp only [extending, hinsertion] at hextending
      rcases (Bool.or_eq_true _ _).mp hextending with hextended | houtdated
      · exact hnew hextended
      · cases hfound : pool.shared.source .dailyTopMovies date with
        | unknown => exact absurd hfound hbefore
        | selected log computedAt' =>
            obtain ⟨insertion, hknown, hfinal⟩ := h.selected log computedAt' hfound
            exact ⟨insertion, Or.inl hknown, (finalRanking_of_outdated houtdated).trans hfinal⟩
        | deleted =>
            apply hnew
            rw [(h.deleted hfound).1]
            rfl

end Exec

/-- A request is answered. -/
theorem Rankings.answer (h : Rankings known date pool) (hthread : pool.Runs i request program)
    {result : Except Failure Response} (houtcome : program.outcome? = some result) :
    Rankings known date (pool.update i (.answered result) pool.shared) := by
  obtain ⟨phase, hobeys, hphase⟩ := h.running i request program hthread
  apply h.update hthread id
  · intro program' hstatus
    cases hstatus
  · intro aggregated hstatus hdate
    cases hstatus
    cases program with
    | ret value =>
        cases houtcome
        exact hphase (Or.inr (hobeys.2 hdate))
    | fail failure => cases houtcome
    | step c next => cases houtcome
  · intro hdeleted
    refine ⟨(h.deleted hdeleted).1, Or.inr ⟨hdeleted, ?_⟩⟩
    rintro ⟨phase', hphase', hobeys'⟩
    cases program with
    | fail failure =>
        cases houtcome
        exact ⟨failure, rfl⟩
    | step c next => cases houtcome
    | ret value =>
        cases value with
        | exported target => rcases hphase' with rfl | rfl <;> cases hobeys'
        | aggregated aggregated =>
            obtain ⟨rfl | rfl, _⟩ := hobeys'
            · rcases hphase' with hphase' | hphase' <;> cases hphase'
            · rcases hphase' with hphase' | hphase' <;> cases hphase'
  · exact h.selected

/-- A request is stopped in the middle. -/
theorem Rankings.stop (h : Rankings known date pool) (hthread : pool.Runs i request program) :
    Rankings known date (pool.update i .stopped pool.shared) := by
  apply h.update hthread id
  · intro program' hstatus
    cases hstatus
  · intro result hstatus
    cases hstatus
  · intro hdeleted
    exact ⟨(h.deleted hdeleted).1, Or.inr ⟨hdeleted, fun _ => trivial⟩⟩
  · exact h.selected

/-- A request starts. -/
theorem Rankings.start (h : Rankings known date pool) (request : Request) :
    Rankings known date
      ⟨pool.shared, pool.threads ++ [⟨request, .running (handle request)⟩]⟩ where
  running i request' program hruns := by
    rcases Service.thread_start hruns with hbefore | ⟨_, rfl, hstatus⟩
    · exact h.running i request' program hbefore
    · obtain rfl := Status.running.inj hstatus
      refine ⟨.untouched, obeys_handle request', ?_⟩
      rintro (hphase | hphase)
      · cases hphase
      · cases hphase
  answered i request' result hanswered hdate := by
    rcases Service.thread_start hanswered with hbefore | ⟨_, _, hstatus⟩
    · exact h.answered i request' result hbefore hdate
    · cases hstatus
  deleted hdeleted := by
    obtain ⟨hrows, i, thread, hi, hhanging⟩ := h.deleted hdeleted
    refine ⟨hrows, i, thread, ?_, hhanging⟩
    exact (List.getElem?_append_left (Service.lt_length_of_getElem hi)).trans hi
  selected := h.selected

theorem Rankings.mono (h : Rankings known date pool)
    (himp : ∀ insertion, known insertion → known' insertion) : Rankings known' date pool where
  running := h.running
  answered := h.answered
  deleted := h.deleted
  selected log computedAt hselected := by
    obtain ⟨insertion, hknown, hfinal⟩ := h.selected log computedAt hselected
    exact ⟨insertion, himp insertion hknown, hfinal⟩

theorem Rankings.next (h : Rankings known date pool) {event : AnalyticsEvent}
    {final : AnalyticsPool} (hextending : extending date pool event = true)
    (hnext : service.next pool event = some final) :
    Rankings (fun insertion => known insertion ∨ insertion? date pool event = some insertion)
      date final := by
  cases Service.move_of_next hnext with
  | start request => exact (h.start request).mono fun _ => Or.inl
  | answer hthread houtcome => exact (h.answer hthread houtcome).mono fun _ => Or.inl
  | stop hthread => exact (h.stop hthread).mono fun _ => Or.inl
  | outside hchange =>
      obtain rfl := Option.some.inj hchange
      rename_i change
      cases change with
      | arrive event => exact ⟨h.running, h.answered, h.deleted, (h.mono fun _ => Or.inl).selected⟩
      | tick time => exact ⟨h.running, h.answered, h.deleted, (h.mono fun _ => Or.inl).selected⟩
  | exec hthread hexec =>
      rename_i i fate request c next answer s
      cases hc : c.access date with
      | other => exact h.spare hthread hexec hc fun _ => Or.inl
      | delete => exact h.delete hthread hexec hc fun _ => Or.inl
      | insert => exact h.insert hthread hexec hc hextending

end Step

/-! ## Runs -/

theorem rankings_run {known : Insertion → Prop} {date : Date} {first pool : AnalyticsPool}
    {events : List AnalyticsEvent} (h : service.run first events = some pool)
    (hextending : service.passes (extending date) first events = true)
    (hfirst : Rankings known date first) :
    Rankings (fun insertion => known insertion ∨ insertion ∈ insertions date first events)
      date pool := by
  induction events generalizing known first with
  | nil =>
      obtain rfl := Option.some.inj h
      exact hfirst.mono fun _ => Or.inl
  | cons event events ih =>
      obtain ⟨middle, hnext, hrest⟩ := Option.bind_eq_some_iff.mp h
      simp only [Service.passes, hnext, Bool.and_eq_true] at hextending
      apply (ih hrest hextending.2 (hfirst.next hextending.1 hnext)).mono
      simp only [insertions, hnext, List.mem_append, Option.mem_toList, or_assoc]
      exact fun _ => id

theorem rankings_initial (date : Date) (clock : Nat) (log : EventLog)
    (tables : (table : MetricTable) → List (Row table)) :
    Rankings (fun _ => False) date (Pool.initial (.initial clock log tables)) where
  running _ _ _ hruns := by cases hruns
  answered _ _ _ hanswered := by cases hanswered
  deleted hdeleted := by cases hdeleted
  selected _ _ hselected := by cases hselected

/-- Every aggregation that can be one of the date has succeeded. -/
def finished (date : Date) (pool : AnalyticsPool) : Bool :=
  pool.threads.all fun thread =>
    match thread.status with
    | .answered (.ok _) => true
    | _ => !thread.request.mayRank date

theorem not_hanging {date : Date} {pool : AnalyticsPool} (h : finished date pool = true) {i : Nat}
    {thread : AnalyticsThread} (hi : pool.threads[i]? = some thread)
    (haggregates : thread.request.mayRank date = true) :
    ¬ Hanging date thread.request thread.status := by
  have hthread := List.all_eq_true.mp h thread (List.mem_of_getElem? hi)
  intro hhanging
  cases hstatus : thread.status with
  | running program =>
      simp only [hstatus, haggregates] at hthread
      cases hthread
  | stopped =>
      simp only [hstatus, haggregates] at hthread
      cases hthread
  | answered result =>
      rw [hstatus] at hhanging
      obtain ⟨failure, rfl⟩ := hhanging
      simp only [hstatus, haggregates] at hthread
      cases hthread

/-- At most one movie for a rank, and at most one rank for a movie. -/
structure ValidRanking (rows : List DailyTopMovie) : Prop where
  ranks : (rows.map (·.rank)).Nodup
  movies : (rows.map (·.movieId)).Nodup

theorem validRanking_select (log : EventLog) (date : Date) (computedAt : Nat) :
    ValidRanking (orderRows .dailyTopMovies (select .dailyTopMovies log date computedAt)) where
  ranks := by
    rw [((orderRows_perm .dailyTopMovies _).map _).nodup_iff]
    exact (selectTopMovies_ranks log date computedAt) ▸ SqlAggregates.ranked_nodup _ _ _
  movies := by
    rw [((orderRows_perm .dailyTopMovies _).map _).nodup_iff]
    exact selectTopMovies_nodup date computedAt log

section Claim

variable {clock : Nat} {log : EventLog} {tables : (table : MetricTable) → List (Row table)}
  {events : List AnalyticsEvent} {pool : AnalyticsPool}

/-- Overlapping aggregations of a date leave the ranking of one of them, if every `INSERT`
    into `daily_top_movies` finds a ranking of the date that it extends or that extends
    it. -/
theorem concurrent_rankings_valid {date : Date}
    (h : service.run (Pool.initial (.initial clock log tables)) events = some pool)
    (hextending : service.passes (extending date)
      (Pool.initial (.initial clock log tables)) events = true)
    (hfinished : finished date pool = true) {i : Nat} {request : Request}
    {result : AggregationResult}
    (hanswered : pool.Answered i request (.ok (.aggregated result)))
    (hdate : result.metricDate = date) :
    ValidRanking (pool.shared.readFinal .dailyTopMovies date) ∧
      ∃ insertion ∈ insertions date (Pool.initial (.initial clock log tables)) events,
        pool.shared.readFinal .dailyTopMovies date =
          orderRows .dailyTopMovies (insertion.rows date) := by
  have hrankings := rankings_run h hextending (rankings_initial date clock log tables)
  have htouched := hrankings.answered i request result hanswered hdate
  cases hsource : pool.shared.source .dailyTopMovies date with
  | unknown => exact absurd hsource htouched
  | deleted =>
      obtain ⟨_, j, thread, hj, haggregates, hhanging⟩ := hrankings.deleted hsource
      exact absurd hhanging (not_hanging hfinished hj haggregates)
  | selected log' computedAt =>
      obtain ⟨insertion, hknown, hfinal⟩ := hrankings.selected log' computedAt hsource
      have hread : pool.shared.readFinal .dailyTopMovies date =
          orderRows .dailyTopMovies (insertion.rows date) := by
        rw [readFinal_eq, ← hfinal]
        rfl
      refine ⟨?_, insertion, hknown.resolve_left id, hread⟩
      rw [hread]
      exact validRanking_select _ _ _

end Claim

/-- Two aggregations of day 5 that delete the ranking before either inserts its own.
    `between` happens between the two `INSERT`s. -/
def overlapping (between : List AnalyticsEvent) : List AnalyticsEvent :=
  [.start (.aggregate (some 5)), .start (.aggregate (some 5))] ++
    List.replicate 7 (.step 0 .done) ++ List.replicate 7 (.step 1 .done) ++ [.step 0 .done] ++
    between ++ List.replicate 17 (.step 1 .done) ++ List.replicate 16 (.step 0 .done)

/-- "a" was viewed on day 5. -/
def viewedLog : EventLog := [movieEventsMv (visit "a" .viewStarted)]

set_option maxRecDepth 10000 in
theorem concurrent_rankings_valid_sample : ∃ pool,
    service.run (Pool.initial (.initial 0 viewedLog fun _ => [])) (overlapping []) = some pool ∧
    ValidRanking (pool.shared.readFinal .dailyTopMovies 5) ∧
    ∃ insertion ∈ insertions 5 (Pool.initial (.initial 0 viewedLog fun _ => [])) (overlapping []),
      pool.shared.readFinal .dailyTopMovies 5 =
        orderRows .dailyTopMovies (insertion.rows 5) := by
  obtain ⟨pool, hrun, hanswer, hfinished⟩ := Service.exists_run (fun pool : AnalyticsPool =>
      pool.answer? 1 = some (.aggregate (some 5), .ok (.aggregated ⟨5, 1, 9⟩)) ∧
        finished 5 pool = true)
    (show ((service.run (Pool.initial (.initial 0 viewedLog fun _ => []))
      (overlapping [])).any _) = true by decide +kernel)
  exact ⟨pool, hrun, concurrent_rankings_valid hrun (by decide +kernel) hfinished
    (Service.answered_of_answer? hanswer) rfl⟩

set_option maxRecDepth 10000 in
/-- Between the two `INSERT`s "b" overtakes "a". -/
theorem concurrent_rankings_mixed : ∃ pool,
    service.run (Pool.initial (.initial 0 viewedLog fun _ => []))
      (overlapping [.outside (.arrive (visit "b" .viewFinished))]) = some pool ∧
    finished 5 pool = true ∧
    (∃ i request result, pool.Answered i request (.ok (.aggregated result)) ∧
      result.metricDate = 5) ∧
    ¬ ValidRanking (pool.shared.readFinal .dailyTopMovies 5) := by
  obtain ⟨pool, hrun, hanswer, hfinished, hrows⟩ := Service.exists_run (fun pool : AnalyticsPool =>
      pool.answer? 1 = some (.aggregate (some 5), .ok (.aggregated ⟨5, 1, 11⟩)) ∧
        finished 5 pool = true ∧
        ¬ ((pool.shared.readFinal .dailyTopMovies 5).map (·.rank)).Nodup)
    (show ((service.run (Pool.initial (.initial 0 viewedLog fun _ => []))
      (overlapping [.outside (.arrive (visit "b" .viewFinished))])).any _) = true by
        decide +kernel)
  refine ⟨pool, hrun, hfinished, ⟨1, _, _, Service.answered_of_answer? hanswer, rfl⟩, ?_⟩
  intro hvalid
  exact hrows hvalid.ranks

end SoaHomework.MovieAnalytics

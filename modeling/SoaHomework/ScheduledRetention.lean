import SoaHomework.ConcurrentAggregation
import SoaHomework.Retention

/-!
# Retention under the scheduler

The scheduler's job aggregates yesterday and nothing else, so the rows of a date
are computed for the last time on the next day, from the events of that day. They
are what stays in the tables when the week that `RETENTION_D7` looks at is over
(`scheduled_retention`).
-/

namespace SoaHomework.MovieAnalytics

open StatementProgram StatementProgram.Program

/-! ## The date of a call -/

/-- The date that a request works on, once it has read the clock. Only an aggregation
    writes metric tables, and only for its date. -/
def aims (aggregates : Bool) : (c : Command) → Reply c → Option Date → Option (Option Date)
  | .now, .ok clock, none => some (some (day clock - 1))
  | .countRawRows date, _, target => if aggregates ∧ target = some date then some target else none
  | .deleteFrom _ date, _, target => if aggregates ∧ target = some date then some target else none
  | .insertInto _ date _, _, target =>
      if aggregates ∧ target = some date then some target else none
  | _, _, target => some target

/-- An aggregation reports the date it has worked on. -/
def Aimed (aggregates : Bool) (target : Option Date) : Response → Prop
  | .aggregated result => target = some result.metricDate
  | .exported _ => aggregates = false

section Aims

variable {aggregates : Bool} {date : Date} {computedAt : Nat}

theorem aims_dated {target target' : Option Date}
    (h : (if aggregates ∧ target = some date then some target else none) = some target') :
    aggregates = true ∧ target = some date ∧ target' = some date := by
  split at h
  · rename_i hboth
    obtain rfl := Option.some.inj h
    exact ⟨hboth.1, hboth.2, hboth.2⟩
  · cases h

/-- The date stays what it is, and is yesterday when it is first known. -/
theorem aims_known {c : Command} {answer : Reply c} {target target' : Option Date}
    (h : aims aggregates c answer target = some target') :
    target' = target ∨ target = none ∧ ∃ clock, HEq answer (Except.ok clock : Except Failure Nat) ∧
      c = .now ∧ target' = some (day clock - 1) := by
  cases c with
  | now =>
      cases answer with
      | error failure => exact Or.inl (Option.some.inj h).symm
      | ok clock =>
          cases target with
          | some date => exact Or.inl (Option.some.inj h).symm
          | none => exact Or.inr ⟨rfl, clock, HEq.rfl, rfl, (Option.some.inj h).symm⟩
  | countRawRows date =>
      obtain ⟨_, rfl, rfl⟩ := aims_dated h
      exact Or.inl rfl
  | deleteFrom table date =>
      obtain ⟨_, rfl, rfl⟩ := aims_dated h
      exact Or.inl rfl
  | insertInto table date computedAt =>
      obtain ⟨_, rfl, rfl⟩ := aims_dated h
      exact Or.inl rfl
  | selectFinal table date => exact Or.inl (Option.some.inj h).symm
  | upsert date payload => exact Or.inl (Option.some.inj h).symm
  | fetch date => exact Or.inl (Option.some.inj h).symm
  | putObject date rows => exact Or.inl (Option.some.inj h).symm

theorem aims_some {c : Command} {answer : Reply c} {target : Option Date}
    (h : aims aggregates c answer (some date) = some target) : target = some date := by
  rcases aims_known h with hsame | ⟨hnone, _⟩
  · exact hsame
  · cases hnone

/-- A target after an executed command. -/
theorem aims_exec {c : Command} {answer : Reply c} {target : Option Date} {i : Nat} {fate : Fate}
    {s s' : Analytics} (h : aims aggregates c answer target = some (some date))
    (hexec : exec i c fate s = some (answer, s')) :
    target = some date ∨ date = day s.clock - 1 := by
  rcases aims_known h with hsame | ⟨_, clock, hanswer, rfl, hdate⟩
  · exact Or.inl hsame.symm
  · cases hexec
    cases hanswer
    exact Or.inr (Option.some.inj hdate)

/-- A command of an aggregation of the date. -/
def Command.About (date : Date) : Command → Prop
  | .countRawRows date' => date' = date
  | .deleteFrom _ date' => date' = date
  | .insertInto _ date' _ => date' = date
  | _ => True

theorem aims_about {c : Command} (h : c.About date) (answer : Reply c) :
    aims true c answer (some date) = some (some date) := by
  cases c with
  | now =>
      cases answer with
      | ok clock => rfl
      | error failure => rfl
  | countRawRows date' =>
      obtain rfl : date' = date := h
      simp only [aims, and_self, if_true]
  | deleteFrom table date' =>
      obtain rfl : date' = date := h
      simp only [aims, and_self, if_true]
  | insertInto table date' computedAt =>
      obtain rfl : date' = date := h
      simp only [aims, and_self, if_true]
  | selectFinal table date' => rfl
  | upsert date' payload => rfl
  | fetch date' => rfl
  | putObject date' rows => rfl

/-- Commands that are about the date of the aggregation. -/
theorem obeys_about {α : Type} {p : Job α} (hp : p.Uses (Command.About date)) :
    p.Obeys (aims true) (fun target _ => target = some date) (some date) :=
  obeys_of_uses hp fun _ answer hop => aims_about hop answer

theorem uses_rewriteTables_about (tables : List MetricTable) :
    (rewriteTables date computedAt tables).Uses (Command.About date) := by
  induction tables with
  | nil => trivial
  | cons table tables ih =>
      have hdelete : Command.About date (.deleteFrom table date) := rfl
      have hinsert : Command.About date (.insertInto table date computedAt) := rfl
      exact uses_bind (uses_bind (uses_command hdelete) fun _ => uses_command hinsert) fun _ => ih

theorem obeys_aggregation (date : Date) :
    (aggregateForDate date).Obeys (aims true)
      (fun target result => target = some result.metricDate) (some date) := by
  rw [aggregateForDate_eq]
  have hcount : Command.About date (.countRawRows date) := rfl
  apply obeys_bind (obeys_about (uses_command hcount))
  rintro processedRows _ rfl
  have hnow : Command.About date .now := trivial
  apply obeys_bind (obeys_about (uses_command hnow))
  rintro now _ rfl
  apply obeys_bind (obeys_about (uses_rewriteTables_about metricTables))
  rintro _ _ rfl
  apply obeys_bind (obeys_about (uses_buildMetricPayload (fun _ => trivial) _))
  rintro metrics _ rfl
  have hupsert : Command.About date (.upsert date metrics) := trivial
  apply obeys_bind (obeys_about (uses_upsertMetrics hupsert))
  rintro _ _ rfl
  rfl

theorem obeys_yesterday (aggregates : Bool) :
    yesterday.Obeys (aims aggregates) (fun target date => target = some date) none := by
  intro answer
  cases answer with
  | ok clock => exact ⟨some (day clock - 1), rfl, rfl⟩
  | error failure => exact ⟨none, rfl, trivial⟩

theorem obeys_aggregateLatest :
    (handle .aggregateLatest).Obeys (aims true) (Aimed true) none := by
  apply obeys_bind (obeys_yesterday true)
  rintro date _ rfl
  apply obeys_bind (obeys_aggregation date)
  intro result target htarget
  exact htarget

/-- An export does not touch the metric tables. -/
theorem obeys_export {request : Request} (h : request.isAggregation = false) :
    (handle request).Obeys (aims false) (Aimed false) none := by
  have hexport : ∀ date (target : Option Date),
      (exportForDate date).Obeys (aims false) (fun target' _ => target' = target) target := by
    intro date target
    have huses : (exportForDate date).Uses fun c =>
        c = .fetch date ∨ ∃ rows, c = .putObject date rows := by
      apply uses_retry
      apply uses_bind (uses_command (Or.inl rfl))
      intro rows
      exact uses_bind (uses_command (Or.inr ⟨_, rfl⟩)) fun _ => trivial
    apply obeys_of_uses huses
    rintro c answer (rfl | ⟨rows, rfl⟩)
    · rfl
    · rfl
  cases request with
  | aggregate targetDate => cases h
  | aggregateLatest => cases h
  | exportLatest =>
      apply obeys_bind (obeys_yesterday false)
      rintro date _ rfl
      apply obeys_bind (hexport date _)
      rintro _ _ rfl
      rfl
  | «export» targetDate =>
      cases targetDate with
      | none =>
          apply obeys_bind (obeys_yesterday false)
          rintro date _ rfl
          apply obeys_bind (hexport date _)
          rintro _ _ rfl
          rfl
      | some date =>
          apply obeys_bind (hexport date none)
          rintro _ _ rfl
          rfl

end Aims

/-! ## What a command changes -/

/-- The last aggregations to begin and the sources of the rows, as a command of request
    `i` may change them. -/
structure Touches (i : Nat) (c : Command) (s s' : Analytics) : Prop where
  clock : s'.clock = s.clock
  latest : ∀ date j, s'.latest date = some j →
    s.latest date = some j ∨ (j = i ∧ c = .countRawRows date)
  begun : ∀ date, s.latest date ≠ none → s'.latest date ≠ none
  source : ∀ table date log computedAt, s'.source table date = .selected log computedAt →
    s.source table date = .selected log computedAt ∨
      (log = s.movieEvents ∧ c = .insertInto table date computedAt)

section Touches

variable {i : Nat} {c : Command} {s s' : Analytics}

theorem settle_state {α : Type} {fate : Fate} {value : α} {before after : Analytics}
    {answer : Except Failure α} (h : some (settle fate value before after) = some (answer, s')) :
    s' = before ∨ s' = after := by
  cases fate with
  | done =>
      cases h
      exact Or.inr rfl
  | failed =>
      cases h
      exact Or.inl rfl
  | lost =>
      cases h
      exact Or.inr rfl

/-- Neither the record of the aggregations nor that of the sources has changed. -/
theorem Touches.of_eq (hclock : s'.clock = s.clock) (hlatest : s'.latest = s.latest)
    (hsource : s'.source = s.source) : Touches i c s s' where
  clock := hclock
  latest _ _ h := Or.inl (hlatest ▸ h)
  begun _ h := hlatest ▸ h
  source _ _ _ _ h := Or.inl (hsource ▸ h)

theorem touches_began (date : Date) : Touches i (.countRawRows date) s (s.began i date) where
  clock := rfl
  latest date' j h := by
    by_cases hdate : date' = date
    · subst hdate
      have hlatest : (s.began i date').latest date' = some i := Function.update_self ..
      rw [hlatest] at h
      exact Or.inr ⟨(Option.some.inj h).symm, rfl⟩
    · have hlatest : (s.began i date).latest date' = s.latest date' :=
        Function.update_of_ne hdate ..
      exact Or.inl (hlatest ▸ h)
  begun date' h := by
    by_cases hdate : date' = date
    · subst hdate
      have hlatest : (s.began i date').latest date' = some i := Function.update_self ..
      rw [hlatest]
      exact Option.some_ne_none i
    · have hlatest : (s.began i date).latest date' = s.latest date' :=
        Function.update_of_ne hdate ..
      rwa [hlatest]
  source table date' log computedAt h := Or.inl h

theorem touches_deleted (table : MetricTable) (date : Date) :
    Touches i (.deleteFrom table date) s (s.deleted table date) where
  clock := rfl
  latest date' j h := Or.inl h
  begun date' h := h
  source table' date' log computedAt h := by
    by_cases hsame : table' = table ∧ date' = date
    · obtain ⟨rfl, rfl⟩ := hsame
      have hsource : (s.deleted table' date').source table' date' = .deleted :=
        setSource_self s table' date' .deleted
      rw [hsource] at h
      cases h
    · rw [Decidable.not_and_iff_or_not] at hsame
      have hsource : (s.deleted table date).source table' date' = s.source table' date' :=
        setSource_other hsame
      exact Or.inl (hsource ▸ h)

theorem touches_inserted (table : MetricTable) (date : Date) (computedAt : Nat) :
    Touches i (.insertInto table date computedAt) s (s.inserted table date computedAt) where
  clock := rfl
  latest date' j h := Or.inl h
  begun date' h := h
  source table' date' log computedAt' h := by
    by_cases hsame : table' = table ∧ date' = date
    · obtain ⟨rfl, rfl⟩ := hsame
      have hsource : (s.inserted table' date' computedAt).source table' date' =
          .selected s.movieEvents computedAt := setSource_self s table' date' _
      rw [hsource] at h
      cases h
      exact Or.inr ⟨rfl, rfl⟩
    · rw [Decidable.not_and_iff_or_not] at hsame
      have hsource : (s.inserted table date computedAt).source table' date' =
          s.source table' date' := setSource_other hsame
      exact Or.inl (hsource ▸ h)

theorem exec_touches {fate : Fate} {answer : Reply c}
    (h : exec i c fate s = some (answer, s')) : Touches i c s s' := by
  cases c with
  | now =>
      cases h
      exact .of_eq rfl rfl rfl
  | countRawRows date =>
      rcases settle_state h with rfl | rfl
      · exact touches_began date
      · exact touches_began date
  | deleteFrom table date =>
      rcases settle_state h with rfl | rfl
      · exact .of_eq rfl rfl rfl
      · exact touches_deleted table date
  | insertInto table date computedAt =>
      rcases settle_state h with rfl | rfl
      · exact .of_eq rfl rfl rfl
      · exact touches_inserted table date computedAt
  | selectFinal table date => rcases settle_state h with rfl | rfl <;> exact .of_eq rfl rfl rfl
  | upsert date payload => rcases settle_state h with rfl | rfl <;> exact .of_eq rfl rfl rfl
  | fetch date => rcases settle_state h with rfl | rfl <;> exact .of_eq rfl rfl rfl
  | putObject date rows => rcases settle_state h with rfl | rfl <;> exact .of_eq rfl rfl rfl

end Touches

/-! ## The scheduler -/

/-- Some aggregation of yesterday has begun. -/
def Analytics.fired (s : Analytics) : Bool := (s.latest (day s.clock - 1)).isSome

/-- Only the jobs of the scheduler run, the aggregations one at a time, and a day ends
    when the job has fired on it and no longer runs. -/
def scheduled (pool : AnalyticsPool) : AnalyticsEvent → Bool
  | .start request => !request.isAggregation ||
      (decide (request = .aggregateLatest) && !aggregating pool)
  | .outside (.tick microseconds) =>
      decide (day (pool.shared.clock + microseconds) = day pool.shared.clock) ||
        (decide (day (pool.shared.clock + microseconds) = day pool.shared.clock + 1) &&
          !aggregating pool && pool.shared.fired)
  | _ => true

/-- No aggregation has failed or been stopped. -/
def neverFailed (pool : AnalyticsPool) : Bool :=
  pool.threads.all fun thread =>
    match thread.status with
    | .running _ | .answered (.ok _) => true
    | .answered (.error _) | .stopped => !thread.request.isAggregation

/-- A request that has begun an aggregation of the date. -/
def WorksOn (date : Date) (today : Date) : Status Command Reply Failure Response → Prop
  | .running program => program.Obeys (aims true) (Aimed true) (some date) ∧ date = today - 1
  | .answered result => ∀ response, result = .ok response →
      ∃ aggregated, response = .aggregated aggregated ∧ aggregated.metricDate = date
  | .stopped => True

/-- Every running aggregation works on yesterday, the last one to begin for a date has
    worked on it, each date has been aggregated on the day after it, and the rows were
    selected on that day. -/
structure Scheduled (first pool : AnalyticsPool) : Prop where
  reached : service.Steps Service.anyStep first pool
  order : day first.shared.clock ≤ day pool.shared.clock
  running : ∀ i request program, pool.Runs i request program → ∃ target,
    program.Obeys (aims request.isAggregation) (Aimed request.isAggregation) target ∧
      (request.isAggregation = true → ∀ date, target = some date →
        date = day pool.shared.clock - 1)
  latest : ∀ date i, pool.shared.latest date = some i → ∃ thread : AnalyticsThread,
    pool.threads[i]? = some thread ∧ thread.request.isAggregation = true ∧
      WorksOn date (day pool.shared.clock) thread.status
  fired : ∀ date, day first.shared.clock ≤ date + 1 → date + 1 < day pool.shared.clock →
    pool.shared.latest date ≠ none
  selected : ∀ table date log computedAt,
    pool.shared.source table date = .selected log computedAt → ∃ middle : AnalyticsPool,
      service.Steps Service.anyStep first middle ∧ service.Steps Service.anyStep middle pool ∧
        middle.shared.movieEvents = log ∧ day middle.shared.clock - 1 = date

section Step

variable {first pool final : AnalyticsPool}

/-- The day is as it was, and request `i` has a new status. -/
theorem Scheduled.update (h : Scheduled first pool) {i : Nat} {request : Request}
    {program : Job Response} (hthread : pool.Runs i request program)
    {status : Status Command Reply Failure Response} {s : Analytics}
    (hsteps : service.Steps Service.anyStep pool (pool.update i status s))
    (hclock : s.clock = pool.shared.clock)
    (hrunning : ∀ program', status = .running program' → ∃ target,
      program'.Obeys (aims request.isAggregation) (Aimed request.isAggregation) target ∧
        (request.isAggregation = true → ∀ date, target = some date →
          date = day pool.shared.clock - 1))
    (hworks : ∀ date, s.latest date = some i → request.isAggregation = true ∧
      WorksOn date (day pool.shared.clock) status)
    (hlatest : ∀ date j, i ≠ j → s.latest date = some j → pool.shared.latest date = some j)
    (hbegun : ∀ date, pool.shared.latest date ≠ none → s.latest date ≠ none)
    (hselected : ∀ table date log computedAt, s.source table date = .selected log computedAt →
      pool.shared.source table date = .selected log computedAt ∨
        (log = pool.shared.movieEvents ∧ day pool.shared.clock - 1 = date)) :
    Scheduled first (pool.update i status s) where
  reached := h.reached.trans hsteps
  order := by
    rw [Service.update_shared, hclock]
    exact h.order
  running j request' program' hruns := by
    rw [Service.update_shared, hclock]
    rcases Service.thread_update hthread hruns with ⟨rfl, rfl, hstatus⟩ | ⟨_, hbefore⟩
    · exact hrunning program' hstatus.symm
    · exact h.running j request' program' hbefore
  latest date j hj := by
    rw [Service.update_shared, hclock]
    by_cases hij : i = j
    · subst hij
      exact ⟨_, Service.update_self hthread status s, hworks date hj⟩
    · obtain ⟨thread, hthread', hworks'⟩ := h.latest date j (hlatest date j hij hj)
      exact ⟨thread, (Service.update_other hij status s).trans hthread', hworks'⟩
  fired date hfirst hday := by
    rw [Service.update_shared, hclock] at hday
    exact hbegun date (h.fired date hfirst hday)
  selected table date log computedAt hsource := by
    rcases hselected table date log computedAt hsource with hbefore | ⟨rfl, hday⟩
    · obtain ⟨middle, hfirst, hrest, heq⟩ := h.selected table date log computedAt hbefore
      exact ⟨middle, hfirst, hrest.trans hsteps, heq⟩
    · exact ⟨pool, h.reached, hsteps, rfl, hday⟩

/-- What a running request that has begun an aggregation of a date still does. -/
theorem Scheduled.worksOn (h : Scheduled first pool) {i : Nat} {request : Request}
    {program : Job Response} (hthread : pool.Runs i request program) {date : Date}
    (hlatest : pool.shared.latest date = some i) : request.isAggregation = true ∧
      program.Obeys (aims true) (Aimed true) (some date) ∧ date = day pool.shared.clock - 1 := by
  obtain ⟨thread, hthread', haggregates, hworks⟩ := h.latest date i hlatest
  obtain rfl := Option.some.inj (hthread.symm.trans hthread')
  exact ⟨haggregates, hworks⟩

theorem Scheduled.exec (h : Scheduled first pool) {i : Nat} {request : Request} {c : Command}
    {next : Reply c → Job Response} {fate : Fate} {answer : Reply c} {s : Analytics}
    (hthread : pool.Runs i request (.step c next))
    (hexec : exec i c fate pool.shared = some (answer, s))
    (hsteps : service.Steps Service.anyStep pool (pool.update i (.running (next answer)) s)) :
    Scheduled first (pool.update i (.running (next answer)) s) := by
  have htouches := exec_touches hexec
  obtain ⟨target, hobeys, htarget⟩ := h.running i request _ hthread
  obtain ⟨target', haims, hnext⟩ := hobeys answer
  apply h.update hthread hsteps htouches.clock
  · rintro program' hstatus
    cases hstatus
    refine ⟨target', hnext, ?_⟩
    rintro haggregates date rfl
    rcases aims_exec haims hexec with hsame | hnew
    · exact htarget haggregates date hsame
    · exact hnew
  · intro date hlatest
    rcases htouches.latest date i hlatest with hbefore | ⟨_, rfl⟩
    · obtain ⟨haggregates, hworks, hdate⟩ := h.worksOn hthread hbefore
      obtain ⟨target'', haims', hnext'⟩ := hworks answer
      obtain rfl := aims_some haims'
      exact ⟨haggregates, hnext', hdate⟩
    · obtain ⟨haggregates, hdate, rfl⟩ := aims_dated haims
      rw [haggregates] at hnext
      exact ⟨haggregates, hnext, htarget haggregates date hdate⟩
  · intro date j hij hlatest
    rcases htouches.latest date j hlatest with hbefore | ⟨rfl, _⟩
    · exact hbefore
    · exact absurd rfl hij
  · exact htouches.begun
  · intro table date log computedAt hsource
    rcases htouches.source table date log computedAt hsource with hbefore | ⟨rfl, rfl⟩
    · exact Or.inl hbefore
    · obtain ⟨haggregates, hdate, _⟩ := aims_dated haims
      exact Or.inr ⟨rfl, (htarget haggregates date hdate).symm⟩

theorem Scheduled.answer (h : Scheduled first pool) {i : Nat} {request : Request}
    {program : Job Response} {result : Except Failure Response}
    (hthread : pool.Runs i request program) (houtcome : program.outcome? = some result)
    (hsteps : service.Steps Service.anyStep pool (pool.update i (.answered result) pool.shared)) :
    Scheduled first (pool.update i (.answered result) pool.shared) := by
  apply h.update hthread hsteps rfl
  · intro program' hstatus
    cases hstatus
  · intro date hlatest
    obtain ⟨haggregates, hobeys, _⟩ := h.worksOn hthread hlatest
    refine ⟨haggregates, ?_⟩
    rintro response rfl
    cases program with
    | fail failure => cases houtcome
    | step c next => cases houtcome
    | ret value =>
        cases houtcome
        cases response with
        | aggregated aggregated => exact ⟨aggregated, rfl, (Option.some.inj hobeys).symm⟩
        | exported date => cases hobeys
  · exact fun _ _ _ hlatest => hlatest
  · exact fun _ hbegun => hbegun
  · exact fun _ _ _ _ hsource => Or.inl hsource

theorem Scheduled.stop (h : Scheduled first pool) {i : Nat} {request : Request}
    {program : Job Response} (hthread : pool.Runs i request program)
    (hsteps : service.Steps Service.anyStep pool (pool.update i .stopped pool.shared)) :
    Scheduled first (pool.update i .stopped pool.shared) := by
  apply h.update hthread hsteps rfl
  · intro program' hstatus
    cases hstatus
  · intro date hlatest
    exact ⟨(h.worksOn hthread hlatest).1, trivial⟩
  · exact fun _ _ _ hlatest => hlatest
  · exact fun _ hbegun => hbegun
  · exact fun _ _ _ _ hsource => Or.inl hsource

theorem obeys_scheduled {request : Request}
    (h : request.isAggregation = false ∨ request = .aggregateLatest) :
    (handle request).Obeys (aims request.isAggregation) (Aimed request.isAggregation) none := by
  rcases h with hexport | rfl
  · rw [hexport]
    exact obeys_export hexport
  · exact obeys_aggregateLatest

theorem Scheduled.start (h : Scheduled first pool) {request : Request}
    (hrequest : request.isAggregation = false ∨ request = .aggregateLatest)
    (hsteps : service.Steps Service.anyStep pool
      ⟨pool.shared, pool.threads ++ [⟨request, .running (handle request)⟩]⟩) :
    Scheduled first ⟨pool.shared, pool.threads ++ [⟨request, .running (handle request)⟩]⟩ where
  reached := h.reached.trans hsteps
  order := h.order
  running i request' program hruns := by
    rcases Service.thread_start hruns with hbefore | ⟨_, rfl, hstatus⟩
    · exact h.running i request' program hbefore
    · obtain rfl := Status.running.inj hstatus
      refine ⟨none, obeys_scheduled hrequest, ?_⟩
      intro _ date hdate
      cases hdate
  latest date i hlatest := by
    obtain ⟨thread, hthread, hworks⟩ := h.latest date i hlatest
    exact ⟨thread, (List.getElem?_append_left (Service.lt_length_of_getElem hthread)).trans hthread,
      hworks⟩
  fired := h.fired
  selected table date log computedAt hsource := by
    obtain ⟨middle, hfirst, hrest, heq⟩ := h.selected table date log computedAt hsource
    exact ⟨middle, hfirst, hrest.trans hsteps, heq⟩

theorem not_runs_aggregation (h : aggregating pool = false) {i : Nat} {request : Request}
    (haggregates : request.isAggregation = true) (program : Job Response) :
    ¬ pool.Runs i request program := by
  intro hruns
  have hrunning : aggregating pool = true :=
    List.any_eq_true.mpr ⟨_, List.mem_of_getElem? hruns, haggregates⟩
  rw [h] at hrunning
  cases hrunning

/-- The shared state changes from outside, and the day does not. -/
theorem Scheduled.outside (h : Scheduled first pool) {s : Analytics}
    (hsteps : service.Steps Service.anyStep pool ⟨s, pool.threads⟩)
    (hlatest : s.latest = pool.shared.latest) (hsource : s.source = pool.shared.source)
    (hday : day s.clock = day pool.shared.clock ∨
      day s.clock = day pool.shared.clock + 1 ∧ aggregating pool = false ∧
        pool.shared.fired = true) : Scheduled first ⟨s, pool.threads⟩ where
  reached := h.reached.trans hsteps
  order := by
    have horder := h.order
    rcases hday with hsame | ⟨hnext, _⟩
    · exact hsame ▸ horder
    · exact hnext ▸ Nat.le_succ_of_le horder
  running i request program hruns := by
    obtain ⟨target, hobeys, htarget⟩ := h.running i request program hruns
    refine ⟨target, hobeys, ?_⟩
    intro haggregates date hdate
    rcases hday with hsame | ⟨_, hidle, _⟩
    · rw [hsame]
      exact htarget haggregates date hdate
    · exact absurd hruns (not_runs_aggregation hidle haggregates program)
  latest date i hi := by
    rw [hlatest] at hi
    obtain ⟨thread, hthread, haggregates, hworks⟩ := h.latest date i hi
    refine ⟨thread, hthread, haggregates, ?_⟩
    rcases hday with hsame | ⟨_, hidle, _⟩
    · rw [hsame]
      exact hworks
    · obtain ⟨request, status⟩ := thread
      cases status with
      | running program =>
          exact absurd hthread (not_runs_aggregation hidle haggregates program)
      | answered result => exact hworks
      | stopped => exact hworks
  fired date hfirst hlater := by
    rw [hlatest]
    rcases hday with hsame | ⟨hnext, _, hfired⟩
    · rw [hsame] at hlater
      exact h.fired date hfirst hlater
    · have hle : date + 1 < day s.clock := hlater
      rw [hnext] at hle
      rcases Nat.lt_or_ge (date + 1) (day pool.shared.clock) with hbefore | hyesterday
      · exact h.fired date hfirst hbefore
      · obtain rfl : date = day pool.shared.clock - 1 :=
          Nat.eq_sub_of_add_eq (Nat.le_antisymm (Nat.le_of_lt_succ hle) hyesterday)
        exact Option.isSome_iff_ne_none.mp hfired
  selected table date log computedAt hselected := by
    rw [hsource] at hselected
    obtain ⟨middle, hfirst, hrest, heq⟩ := h.selected table date log computedAt hselected
    exact ⟨middle, hfirst, hrest.trans hsteps, heq⟩

theorem Scheduled.next (h : Scheduled first pool) {event : AnalyticsEvent}
    (hscheduled : scheduled pool event = true) (hnext : service.next pool event = some final) :
    Scheduled first final := by
  have hsteps : service.Steps Service.anyStep pool final := .single event trivial hnext
  cases Service.move_of_next hnext with
  | start request =>
      refine h.start ?_ hsteps
      simp only [scheduled, Bool.or_eq_true, Bool.and_eq_true, Bool.not_eq_true',
        decide_eq_true_eq] at hscheduled
      exact hscheduled.imp_right And.left
  | exec hthread hexec => exact h.exec hthread hexec hsteps
  | answer hthread houtcome => exact h.answer hthread houtcome hsteps
  | stop hthread => exact h.stop hthread hsteps
  | @outside change s hchange =>
      obtain rfl := Option.some.inj hchange
      cases change with
      | arrive event => exact h.outside hsteps rfl rfl (Or.inl rfl)
      | tick microseconds =>
          refine h.outside hsteps rfl rfl ?_
          simp only [scheduled, Bool.or_eq_true, Bool.and_eq_true, Bool.not_eq_true',
            decide_eq_true_eq, and_assoc] at hscheduled
          exact hscheduled

theorem scheduled_run {events : List AnalyticsEvent} (h : service.run first events = some pool)
    (hscheduled : service.passes scheduled first events = true) (hfirst : Scheduled first first) :
    Scheduled first pool :=
  Service.run_invariant (fun _ _ _ hpool hcheck hnext => hpool.next hcheck hnext) hfirst
    hscheduled h

theorem scheduled_initial (clock : Nat) (log : EventLog)
    (tables : (table : MetricTable) → List (Row table)) :
    Scheduled (Pool.initial (.initial clock log tables))
      (Pool.initial (.initial clock log tables)) where
  reached := .refl _
  order := Nat.le_refl _
  running _ _ _ hruns := by cases hruns
  latest _ _ hlatest := by cases hlatest
  fired date hfirst hlater := absurd hlater (Nat.not_lt.mpr hfirst)
  selected _ _ _ _ hsource := by cases hsource

end Step

/-! ## The stored retention -/

/-- The users that the row of a lifecycle day shows, 0 when there is no row. -/
def shownUsers (rows : List RetentionCohort) (day : Nat) : Nat :=
  match rows.find? fun row => decide (row.lifecycleDay = day) with
  | some row => row.users
  | none => 0

/-- The stored retention of a date is that of the events. -/
structure RetentionStored (date : Date) (s : Analytics) : Prop where
  retention : ∃ row, s.readFinal .dailyRetention date = [row] ∧
    row.retentionD7 = returnRate s.movieEvents date 7
  metric : ∃ stored, s.dailyMetrics.lookup ⟨date, .retentionD7, "", ""⟩ = some stored ∧
    stored.metricValue = returnRate s.movieEvents date 7
  cohorts : ∀ day ≤ 7, shownUsers (s.readFinal .retentionCohorts date) day =
    (returned s.movieEvents date day).card

/-- The rows of a table for a date were selected last in the state `last`, of the day
    after the date. -/
structure LastSelected (first pool : AnalyticsPool) (table : MetricTable) (date : Date)
    (last : AnalyticsPool) : Prop where
  reached : service.Steps Service.anyStep first last
  remaining : service.Steps Service.anyStep last pool
  nextDay : day last.shared.clock - 1 = date
  source : ∃ computedAt,
    pool.shared.source table date = .selected last.shared.movieEvents computedAt

/-- The early events, each seen by one of the two tables, already give the numbers of
    all events. -/
structure Foreseen (date : Date) (early early' now : EventLog) : Prop where
  rate : returnRate early date 7 = returnRate now date 7
  users : ∀ day ≤ 7, (counted early' date day).card = (returned now date day).card

theorem shownUsers_selectRetentionCohorts {log : EventLog} {date : Date} {computedAt day : Nat}
    (hday : day ≤ 7) : shownUsers (selectRetentionCohorts log date computedAt) day =
      (counted log date day).card := by
  unfold shownUsers
  split
  · rename_i row hfind
    obtain ⟨day', _, _, rfl⟩ := mem_selectRetentionCohorts.mp (List.mem_of_find?_eq_some hfind)
    have hfound := List.find?_some hfind
    simp only [decide_eq_true_eq] at hfound
    rw [show day' = day from hfound]
    rfl
  · rename_i hnone
    by_contra hne
    have hnonempty : (counted log date day).Nonempty :=
      Finset.card_pos.mp (Nat.pos_of_ne_zero (Ne.symm hne))
    have hmem : cohortRow log date computedAt day ∈ selectRetentionCohorts log date computedAt :=
      mem_selectRetentionCohorts.mpr ⟨day, hday, hnonempty, rfl⟩
    exact List.find?_eq_none.mp hnone _ hmem (decide_eq_true rfl)

section Stored

variable {i : Nat} {date : Date} {computedAt : Nat} {logs : MetricTable → EventLog}
  {found : DailyMetrics} {s : Analytics}

/-- What is stored after an aggregation is the retention of the events that it has seen. -/
theorem retentionStored_iff (hs : Stored i date computedAt logs found s) (hsourced : Sourced s) :
    RetentionStored date s ↔
      Foreseen date (logs .dailyRetention) (logs .retentionCohorts) s.movieEvents := by
  have hrows : ∀ table, s.readFinal table date =
      orderRows table (select table (logs table) date computedAt) := by
    intro table
    have hdescribes := hsourced.rows table date
    rw [hs.sources table] at hdescribes
    exact readFinal_of_rows hdescribes.1
  have hretention : s.readFinal .dailyRetention date =
      [⟨date, returnRate (logs .dailyRetention) date 1, returnRate (logs .dailyRetention) date 7,
        computedAt⟩] := by
    rw [hrows]
    exact selectRetention_eq _ date computedAt
  have hcohorts : s.readFinal .retentionCohorts date =
      selectRetentionCohorts (logs .retentionCohorts) date computedAt := hrows .retentionCohorts
  have hmetric : ∃ now, s.dailyMetrics.lookup ⟨date, .retentionD7, "", ""⟩ =
      some ⟨returnRate (logs .dailyRetention) date 7, now, ⟨none, computedAt⟩⟩ := by
    have hmem : plainMetric computedAt .retentionD7 (returnRate (logs .dailyRetention) date 7) ∈
        selectedPayload date computedAt logs := by
      have hrow : selectedRows date computedAt logs .dailyRetention = _ :=
        selectRetention_eq (logs .dailyRetention) date computedAt
      simp only [selectedPayload, payloadOf, List.mem_append, hrow, retentionMetrics,
        List.mem_cons, true_or, or_true]
    exact hs.stored _ hmem
  constructor
  · rintro ⟨⟨row, hrow, hrate⟩, _, husers⟩
    rw [hretention] at hrow
    obtain rfl := (List.cons.inj hrow).1
    refine ⟨hrate, ?_⟩
    intro day hday
    rw [← husers day hday, hcohorts, shownUsers_selectRetentionCohorts hday]
  · rintro ⟨hrate, husers⟩
    refine ⟨⟨_, hretention, hrate⟩, ?_, ?_⟩
    · obtain ⟨now, hlookup⟩ := hmetric
      exact ⟨_, hlookup, hrate⟩
    · intro day hday
      rw [hcohorts, shownUsers_selectRetentionCohorts hday, husers day hday]

end Stored

theorem oneAtATime_of_scheduled {pool : AnalyticsPool} {event : AnalyticsEvent}
    (h : scheduled pool event = true) : oneAtATime pool event = true := by
  cases event with
  | start request =>
      simp only [scheduled, Bool.or_eq_true, Bool.and_eq_true, Bool.not_eq_true'] at h
      rcases h with hexport | ⟨_, hidle⟩
      · simp only [oneAtATime, hexport, Bool.false_and, Bool.not_false]
      · simp only [oneAtATime, hidle, Bool.and_false, Bool.not_false]
  | step i fate => rfl
  | stop i => rfl
  | outside change => rfl

section Claim

variable {clock : Nat} {log : EventLog} {tables : (table : MetricTable) → List (Row table)}
  {events : List AnalyticsEvent} {pool : AnalyticsPool}

/-- The aggregation of a date that began last has succeeded when the day after the date
    is over. -/
theorem succeeded_of_scheduled {date : Date}
    (h : Scheduled (Pool.initial (.initial clock log tables)) pool)
    (hfailed : neverFailed pool = true) (hstart : day clock ≤ date + 1)
    (hday : date + 1 < day pool.shared.clock) : ∃ i request result,
      pool.shared.latest date = some i ∧
        pool.Answered i request (.ok (.aggregated result)) ∧ result.metricDate = date := by
  obtain ⟨i, hlatest⟩ := Option.ne_none_iff_exists'.mp (h.fired date hstart hday)
  obtain ⟨⟨request, status⟩, hthread, haggregates, hworks⟩ := h.latest date i hlatest
  have hended := List.all_eq_true.mp hfailed _ (List.mem_of_getElem? hthread)
  cases status with
  | running program =>
      have hlast := Nat.sub_le_iff_le_add.mp (Nat.le_of_eq hworks.2.symm)
      exact absurd hday (Nat.not_lt.mpr hlast)
  | stopped =>
      simp only [haggregates] at hended
      cases hended
  | answered result =>
      cases result with
      | error failure =>
          simp only [haggregates] at hended
          cases hended
      | ok response =>
          obtain ⟨aggregated, rfl, hdate⟩ := hworks response rfl
          exact ⟨i, request, aggregated, hlatest, hthread, hdate⟩

/-- Under the scheduler the retention stored for a date is right from a week after it on
    exactly when the events of the day after the date already give it. -/
theorem scheduled_retention {date : Date}
    (h : service.run (Pool.initial (.initial clock log tables)) events = some pool)
    (hscheduled : service.passes scheduled (Pool.initial (.initial clock log tables)) events = true)
    (hfailed : neverFailed pool = true) (hstart : day clock ≤ date + 1)
    (hday : date + 8 ≤ day pool.shared.clock) : ∃ last last' : AnalyticsPool,
      LastSelected (Pool.initial (.initial clock log tables)) pool .dailyRetention date last ∧
      LastSelected (Pool.initial (.initial clock log tables)) pool .retentionCohorts date last' ∧
      (RetentionStored date pool.shared ↔ Foreseen date last.shared.movieEvents
        last'.shared.movieEvents pool.shared.movieEvents) := by
  have hinv := scheduled_run h hscheduled (scheduled_initial clock log tables)
  obtain ⟨i, request, result, hlatest, hanswered, hdate⟩ :=
    succeeded_of_scheduled hinv hfailed hstart (Nat.lt_of_lt_of_le (by omega) hday)
  have hone := Service.passes_mono (fun _ _ => oneAtATime_of_scheduled) hscheduled
  have hholds := holds_run h hone
  obtain ⟨_, computedAt, logs, found, _, hsucceeded⟩ :=
    hholds.answered i request _ hanswered result rfl
  rw [hdate] at hsucceeded
  have hstored := hsucceeded hlatest
  have hlast : ∀ table, ∃ last,
      LastSelected (Pool.initial (.initial clock log tables)) pool table date last ∧
        last.shared.movieEvents = logs table := by
    intro table
    obtain ⟨last, hreached, hremaining, hevents, hnext⟩ :=
      hinv.selected table date _ _ (hstored.sources table)
    refine ⟨last, ⟨hreached, hremaining, hnext, computedAt, ?_⟩, hevents⟩
    rw [hevents]
    exact hstored.sources table
  obtain ⟨last, hlast₁, hevents⟩ := hlast .dailyRetention
  obtain ⟨last', hlast₂, hevents'⟩ := hlast .retentionCohorts
  refine ⟨last, last', hlast₁, hlast₂, ?_⟩
  rw [hevents, hevents']
  exact retentionStored_iff hstored hholds.inv

end Claim

/-- The job of a day, without a failure, and the night after it. -/
def jobAndNight (i : Nat) : List AnalyticsEvent :=
  .start .aggregateLatest :: (List.replicate 25 (.step i .done) ++
    [.outside (.tick 86400000000)])

/-- The jobs of the days 11 to 17. Before the last one `arrivals` arrive. -/
def weekOfJobs (arrivals : List AnalyticsEvent) : List AnalyticsEvent :=
  (List.range 6).flatMap jobAndNight ++ arrivals ++ jobAndNight 6

/-- A user views a movie on a day. -/
def visitOn (user : String) (day : Nat) : MovieEvent :=
  ⟨day, user, "m", .viewStarted, 86400000 * day, .tv, "s", some 0, none, 1⟩

/-- A user has been seen for the first time on day 10, and day 11 begins. -/
def dayEleven : AnalyticsPool :=
  Pool.initial (.initial (86400000000 * 11) [movieEventsMv (visitOn "u" 10)] fun _ => [])

/-- Events of the week after a date do not arrive when the week is over. -/
def ingested (date : Date) (pool : AnalyticsPool) : AnalyticsEvent → Bool
  | .outside (.arrive event) => decide (date + 8 ≤ (movieEventsMv event).eventDate) ||
      decide (day pool.shared.clock < date + 8)
  | _ => true

set_option maxRecDepth 10000 in
/-- The user does not come back. -/
theorem scheduled_retention_sample : ∃ pool,
    service.run dayEleven (weekOfJobs []) = some pool ∧ RetentionStored 10 pool.shared := by
  obtain ⟨pool, hrun, hfailed, hday, hevents, hsource, hsource'⟩ := Service.exists_run
    (fun pool : AnalyticsPool => neverFailed pool = true ∧ 10 + 8 ≤ day pool.shared.clock ∧
      pool.shared.movieEvents = [movieEventsMv (visitOn "u" 10)] ∧
      (pool.shared.source .dailyRetention 10).log = [movieEventsMv (visitOn "u" 10)] ∧
      (pool.shared.source .retentionCohorts 10).log = [movieEventsMv (visitOn "u" 10)])
    (show ((service.run dayEleven (weekOfJobs [])).any _) = true by decide +kernel)
  obtain ⟨last, last', hlast, hlast', hiff⟩ :=
    scheduled_retention hrun (by decide +kernel) hfailed (by decide +kernel) hday
  obtain ⟨_, heq⟩ := hlast.source
  obtain ⟨_, heq'⟩ := hlast'.source
  rw [heq] at hsource
  rw [heq'] at hsource'
  refine ⟨pool, hrun, hiff.mpr ?_⟩
  rw [show last.shared.movieEvents = _ from hsource,
    show last'.shared.movieEvents = _ from hsource', hevents]
  exact ⟨rfl, by decide +kernel⟩

set_option maxRecDepth 10000 in
/-- The user comes back on day 17, when the job has left day 10 behind. -/
theorem scheduled_retention_wrong : ∃ pool,
    service.run dayEleven (weekOfJobs [.outside (.arrive (visitOn "u" 17))]) = some pool ∧
    service.passes scheduled dayEleven
      (weekOfJobs [.outside (.arrive (visitOn "u" 17))]) = true ∧
    service.passes (ingested 10) dayEleven
      (weekOfJobs [.outside (.arrive (visitOn "u" 17))]) = true ∧
    neverFailed pool = true ∧ 10 + 8 ≤ day pool.shared.clock ∧
    ¬ RetentionStored 10 pool.shared := by
  obtain ⟨pool, hrun, hfailed, hday, hrate, hrows⟩ := Service.exists_run
    (fun pool : AnalyticsPool => neverFailed pool = true ∧ 10 + 8 ≤ day pool.shared.clock ∧
      returnRate pool.shared.movieEvents 10 7 = 1 ∧
      pool.shared.readFinal .dailyRetention 10 = [⟨10, 0, 0, 950400⟩])
    (show ((service.run dayEleven
      (weekOfJobs [.outside (.arrive (visitOn "u" 17))])).any _) = true by decide +kernel)
  refine ⟨pool, hrun, by decide +kernel, by decide +kernel, hfailed, hday, ?_⟩
  rintro ⟨⟨row, hrow, hvalue⟩, _, _⟩
  rw [hrows] at hrow
  obtain rfl := (List.cons.inj hrow).1
  rw [hrate] at hvalue
  exact absurd hvalue (by decide +kernel)

end SoaHomework.MovieAnalytics

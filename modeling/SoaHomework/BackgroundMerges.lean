import SoaHomework.Aggregation
import SoaHomework.ServiceRefinement

/-!
# Background merges

ClickHouse merges the parts of a `ReplacingMergeTree` at moments of its own and
drops the rows that are replaced within them. The aggregation service reads its
tables with `FINAL`, deletes by the date, which is part of every sorting key, and
appends; so nothing that it answers or stores depends on when the merges happen.
-/

namespace SoaHomework.MovieAnalytics

open StatementProgram

/-! ## Merges -/

/-- `count` adjacent rows of a table are merged. -/
def Analytics.merged (s : Analytics) (table : MetricTable) (start count : Nat) : Analytics :=
  { s with
    tables := Function.update s.tables table
      (ReplacingTable.merge table.sameKey table.version start count (s.tables table)) }

/-- What happens outside the service when ClickHouse merges as well. -/
inductive Background where
  | change (what : Change)
  | merge (table : MetricTable) (start count : Nat)
deriving DecidableEq, Repr

/-- The service over a ClickHouse that merges. -/
def mergingService :
    Service Command Reply Failure Response Request Fate Background Analytics where
  handler := handle
  exec := exec
  close _ s := s
  outside background s :=
    match background with
    | .change what => some (s.after what)
    | .merge table start count => some (s.merged table start count)

/-- The change that a background event is, if it is no merge. -/
def Background.change? : Background → Option Change
  | .change what => some what
  | .merge _ _ _ => none

/-- The same events without the merges. -/
def withoutMerges (events : List (Event Request Fate Background)) : List AnalyticsEvent :=
  events.filterMap (Event.followed id Background.change?)

/-! ## States that differ in merges only -/

/-- All the rows of a table that `FINAL` reads. -/
def finalRows (tables : (table : MetricTable) → List (Row table)) (table : MetricTable) :
    List (Row table) :=
  ReplacingTable.final table.sameKey table.version (tables table)

/-- The state is `s`, but for rows that `FINAL` does not read. -/
inductive ReadAlike (s : Analytics) : Analytics → Prop where
  | mk (tables : (table : MetricTable) → List (Row table))
      (hfinal : ∀ table, finalRows tables table = finalRows s.tables table) :
      ReadAlike s { s with tables := tables }

variable {s t : Analytics}

theorem ReadAlike.refl (s : Analytics) : ReadAlike s s := .mk s.tables fun _ => rfl

/-- Changing one table in two states alike. -/
theorem finalRows_update {tables tables' : (table : MetricTable) → List (Row table)}
    (h : ∀ table, finalRows tables table = finalRows tables' table) (table : MetricTable)
    {rows rows' : List (Row table)}
    (hrows : ReplacingTable.final table.sameKey table.version rows =
      ReplacingTable.final table.sameKey table.version rows') (other : MetricTable) :
    finalRows (Function.update tables table rows) other =
      finalRows (Function.update tables' table rows') other := by
  unfold finalRows
  by_cases hother : other = table
  · subst hother
    rw [Function.update_self, Function.update_self]
    exact hrows
  · rw [Function.update_of_ne hother, Function.update_of_ne hother]
    exact h other

theorem ReadAlike.merged (h : ReadAlike s t) (table : MetricTable) (start count : Nat) :
    ReadAlike (s.merged table start count) t := by
  obtain ⟨tables, hfinal⟩ := h
  refine .mk (s := s.merged table start count) tables fun other => ?_
  have hsame := finalRows_update hfinal table ((hfinal table).trans
    (ReplacingTable.final_merge MetricTable.sameKey_symm MetricTable.sameKey_trans start count
      (s.tables table)).symm) other
  rwa [Function.update_eq_self] at hsame

theorem ReadAlike.deleted (h : ReadAlike s t) (table : MetricTable) (date : Date) :
    ReadAlike (s.deleted table date) (t.deleted table date) := by
  obtain ⟨tables, hfinal⟩ := h
  refine .mk (s := s.deleted table date) _ (finalRows_update hfinal table ?_)
  have hdate : ∀ a b : Row table, table.sameKey a b = true →
      decide (table.date a ≠ date) = decide (table.date b ≠ date) := fun a b hab => by
    rw [MetricTable.date_of_sameKey hab]
  rw [← ReplacingTable.filter_final hdate, ← ReplacingTable.filter_final hdate]
  exact congrArg (List.filter _) (hfinal table)

theorem ReadAlike.inserted (h : ReadAlike s t) (table : MetricTable) (date : Date)
    (computedAt : Nat) :
    ReadAlike (s.inserted table date computedAt) (t.inserted table date computedAt) := by
  obtain ⟨tables, hfinal⟩ := h
  exact .mk (s := s.inserted table date computedAt) _ (finalRows_update hfinal table
    (ReplacingTable.final_append_congr MetricTable.sameKey_symm MetricTable.sameKey_trans
      (hfinal table) _))

/-- `FINAL` reads the same rows for a date. -/
theorem ReadAlike.readFinal (h : ReadAlike s t) (table : MetricTable) (date : Date) :
    t.readFinal table date = s.readFinal table date := by
  obtain ⟨tables, hfinal⟩ := h
  exact congrArg (fun rows : List (Row table) =>
    orderRows table (rows.filter fun row => decide (table.date row = date))) (hfinal table)

/-! ## Refinement -/

theorem ReadAlike.settle {α : Type} {fate : Fate} {value : α} {s' t' : Analytics}
    (h : ReadAlike s t) (h' : ReadAlike s' t') :
    ∃ answer after after', settle fate value s s' = (answer, after) ∧
      settle fate value t t' = (answer, after') ∧ ReadAlike after after' := by
  cases fate with
  | done => exact ⟨_, _, _, rfl, rfl, h'⟩
  | failed => exact ⟨_, _, _, rfl, rfl, h⟩
  | lost => exact ⟨_, _, _, rfl, rfl, h'⟩

/-- A command is answered alike in states that are read alike. -/
theorem exec_alike (h : ReadAlike s t) {i : Nat} {c : Command} {fate : Fate} {answer : Reply c}
    {s' : Analytics} (hexec : exec i c fate s = some (answer, s')) :
    ∃ t', exec i c fate t = some (answer, t') ∧ ReadAlike s' t' := by
  have hsettle : ∀ {value : Result c} {before before' after after' : Analytics},
      exec i c fate s = some (settle fate value before after) →
      exec i c fate t = some (settle fate value before' after') → ReadAlike before before' →
      ReadAlike after after' → ∃ t', exec i c fate t = some (answer, t') ∧ ReadAlike s' t' := by
    intro value before before' after after' hs ht hbefore hafter
    obtain ⟨answer', u, u', hsettle, hsettle', hu⟩ := hbefore.settle hafter
    rw [hs, hsettle, Option.some.injEq, Prod.mk.injEq] at hexec
    obtain ⟨rfl, rfl⟩ := hexec
    exact ⟨u', ht.trans (congrArg some hsettle'), hu⟩
  have hread := h.readFinal
  obtain ⟨tables, hfinal⟩ := id h
  cases c with
  | now =>
      simp only [exec, Option.some.injEq, Prod.mk.injEq] at hexec
      obtain ⟨rfl, rfl⟩ := hexec
      exact ⟨_, rfl, h⟩
  | countRawRows date =>
      have hbegan := ReadAlike.mk (s := s.began i date) tables hfinal
      exact hsettle rfl rfl hbegan hbegan
  | deleteFrom table date => exact hsettle rfl rfl h (h.deleted table date)
  | insertInto table date computedAt => exact hsettle rfl rfl h (h.inserted table date computedAt)
  | selectFinal table date =>
      refine hsettle rfl ?_ h h
      simp only [exec, hread]
  | upsert date payload =>
      exact hsettle rfl rfl h (.mk (s := s.upserted i date payload) tables hfinal)
  | fetch date => exact hsettle rfl rfl h h
  | putObject date rows =>
      exact hsettle rfl rfl h (.mk (s := s.exported date rows) tables hfinal)

theorem ReadAlike.after (h : ReadAlike s t) (what : Change) :
    ReadAlike (s.after what) (t.after what) := by
  obtain ⟨tables, hfinal⟩ := h
  cases what with
  | arrive event => exact .mk (s := s.after (.arrive event)) tables hfinal
  | tick microseconds => exact .mk (s := s.after (.tick microseconds)) tables hfinal

theorem merges_refine :
    mergingService.Refines service ReadAlike id Background.change? where
  handler := rfl
  exec h hexec := exec_alike h hexec
  close _ h := h
  silent := by
    intro background s t s' h hoccurs hsilent
    cases background with
    | change what => cases hsilent
    | merge table start count =>
        simp only [mergingService, Option.some.injEq] at hoccurs
        subst hoccurs
        exact h.merged table start count
  outside := by
    intro background what s t s' h hoccurs hchange
    cases background with
    | merge table start count => cases hchange
    | change what' =>
        simp only [mergingService, Option.some.injEq] at hoccurs
        simp only [Background.change?, Option.some.injEq] at hchange
        subst hoccurs hchange
        exact ⟨_, rfl, h.after what'⟩

/-- A run in which ClickHouse merges at any moments is a run without merges: every
    request has come equally far and has the same answer, PostgreSQL and the bucket
    hold the same, and `FINAL` reads the same rows. -/
theorem merges_unobservable (s : Analytics) {events : List (Event Request Fate Background)}
    {pool : AnalyticsPool} (hrun : mergingService.run (Pool.initial s) events = some pool) :
    ∃ pool', service.run (Pool.initial s) (withoutMerges events) = some pool' ∧
      pool'.threads = pool.threads ∧
      pool'.shared.dailyMetrics = pool.shared.dailyMetrics ∧
      pool'.shared.bucket = pool.shared.bucket ∧
      pool'.shared.movieEvents = pool.shared.movieEvents ∧
      ∀ table date, pool'.shared.readFinal table date = pool.shared.readFinal table date := by
  obtain ⟨pool', hrun', hthreads, hshared⟩ :=
    merges_refine.run ⟨rfl, ReadAlike.refl s⟩ hrun
  refine ⟨pool', hrun', hthreads, ?_⟩
  have hread := hshared.readFinal
  generalize pool'.shared = t at hshared hread ⊢
  obtain ⟨tables, _⟩ := hshared
  exact ⟨rfl, rfl, rfl, hread⟩

/-- The row of an older run, of which `FINAL` reads nothing any more. -/
def twoRuns : Analytics :=
  .initial 0 [] fun
    | .dailyDau => [⟨5, 1, 10⟩, ⟨5, 2, 20⟩]
    | _ => []

/-- The older row is dropped while a request aggregates another day. -/
def mergedWhileRunning : List (Event Request Fate Background) :=
  .start (.aggregate (some 6)) :: List.replicate 6 (.step 0 .done) ++
    .outside (.merge .dailyDau 0 2) :: List.replicate 18 (.step 0 .done)

theorem merges_unobservable_sample : ∃ pool pool' : AnalyticsPool,
    mergingService.run (Pool.initial twoRuns) mergedWhileRunning = some pool ∧
      service.run (Pool.initial twoRuns) (withoutMerges mergedWhileRunning) = some pool' ∧
      pool.isRunning 0 = false ∧ pool'.threads = pool.threads := by
  have hrun : (mergingService.run (Pool.initial twoRuns) mergedWhileRunning).isSome := by
    decide +kernel
  have hended : ((mergingService.run (Pool.initial twoRuns) mergedWhileRunning).get
      hrun).isRunning 0 = false := by decide +kernel +revert
  obtain ⟨pool', hrun', hthreads, _⟩ :=
    merges_unobservable twoRuns (Option.some_get hrun).symm
  exact ⟨_, pool', (Option.some_get hrun).symm, hrun', hended, hthreads⟩

end SoaHomework.MovieAnalytics

import SoaHomework.RepeatedAggregation

/-!
# Failed aggregations

An aggregation that raises has rewritten some tables, has not come to others, and
may have stopped between the `DELETE` of a table and its `INSERT`. Only then are
the rows of the table lost.
-/

namespace SoaHomework.MovieAnalytics

open StatementProgram StatementProgram.Program SqlAggregates

/-- In each table the rows of the date are the old ones or newly computed, and the
    rows of other dates are the old ones. -/
structure OldOrNew (date : Date) (s s' : Analytics) : Prop where
  rows : ∀ table, s'.rows table date = s.rows table date ∨
    ∃ computedAt, s'.rows table date = select table s.movieEvents date computedAt
  others : ∀ table other, other ≠ date → s'.rows table other = s.rows table other

/-- The table that the rewrites have left between its `DELETE` and its `INSERT`,
    by what became of their commands. -/
def emptied : List MetricTable → List Fate → Option MetricTable
  | table :: _, [.lost] => some table
  | table :: _, [.done, .failed] => some table
  | _ :: tables, .done :: .done :: fates => emptied tables fates
  | _, _ => none

/-- The same for a call, which counts the events and reads the clock first. -/
def abandoned (fates : List Fate) : Option MetricTable := emptied metricTables (fates.drop 2)

section Failed

variable {i : Nat} {s s' : Analytics} {date : Date} {computedAt : Nat}
  {choices : List (Fate × Nat)}

theorem runsWith_command {c : Command} {result : Reply c}
    (h : (command c).RunsWith (execTimed i) choices s result s') :
    ∃ fate s₁ m, choices = [(fate, m)] ∧ exec i c fate s = some (result, s₁) ∧
      s' = s₁.later m := by
  cases h with
  | @step _ _ _ _ _ answer _ choices' choice hexec hnext =>
      obtain ⟨fate, m⟩ := choice
      obtain ⟨⟨answer', s₁⟩, hexec', heq⟩ := Option.map_eq_some_iff.mp hexec
      cases heq
      cases answer' with
      | ok value =>
          cases hnext
          exact ⟨fate, s₁, m, rfl, hexec', rfl⟩
      | error failure =>
          cases hnext
          exact ⟨fate, s₁, m, rfl, hexec', rfl⟩

/-- A command with an effect has been executed, or has not and raises, or has and
    raises. -/
theorem runsWith_settled {c : Command} {value : Result c} {after : Analytics}
    {result : Reply c} (hsettle : ∀ fate, exec i c fate s = some (settle fate value s after))
    (h : (command c).RunsWith (execTimed i) choices s result s') :
    ∃ m, (choices = [(.done, m)] ∧ result = .ok value ∧ s' = after.later m) ∨
      (choices = [(.failed, m)] ∧ result = .error .raised ∧ s' = s.later m) ∨
      (choices = [(.lost, m)] ∧ result = .error .raised ∧ s' = after.later m) := by
  obtain ⟨fate, s₁, m, rfl, hexec, rfl⟩ := runsWith_command h
  rw [hsettle] at hexec
  refine ⟨m, ?_⟩
  cases fate with
  | done =>
      cases hexec
      exact Or.inl ⟨rfl, rfl, rfl⟩
  | failed =>
      cases hexec
      exact Or.inr (Or.inl ⟨rfl, rfl, rfl⟩)
  | lost =>
      cases hexec
      exact Or.inr (Or.inr ⟨rfl, rfl, rfl⟩)

/-! ## The rewrites -/

/-- What a call leaves that has emptied the table `left`, if any. -/
structure Abandoned (left : Option MetricTable) (date : Date) (s s' : Analytics) : Prop where
  lost : ∀ table, left = some table → s'.rows table date = []
  rows : ∀ table, left ≠ some table → s'.rows table date = s.rows table date ∨
    ∃ computedAt, s'.rows table date = select table s.movieEvents date computedAt
  others : ∀ table other, other ≠ date → s'.rows table other = s.rows table other

/-- No rows have changed. -/
theorem Abandoned.of_rows (h : ∀ table other, s'.rows table other = s.rows table other) :
    Abandoned none date s s' where
  lost _ hleft := by cases hleft
  rows table _ := Or.inl (h table date)
  others table other _ := h table other

theorem Abandoned.of_deleted (table : MetricTable)
    (h : ∀ table' other, s'.rows table' other = (s.deleted table date).rows table' other) :
    Abandoned (some table) date s s' where
  lost table' hleft := by
    obtain rfl := Option.some.inj hleft
    rw [h, deleted_rows_self]
  rows table' hleft := by
    have hne : table' ≠ table := fun heq => hleft (heq ▸ rfl)
    exact Or.inl ((h table' date).trans (deleted_rows_other s (Or.inl hne)))
  others table' other hother :=
    (h table' other).trans (deleted_rows_other s (Or.inr hother))

/-- Time has passed before. -/
theorem Abandoned.waited {left : Option MetricTable} (m : Nat)
    (h : Abandoned left date (s.later m) s') : Abandoned left date s s' where
  lost := h.lost
  rows := h.rows
  others := h.others

/-- A table has been rewritten before. -/
theorem Abandoned.rewritten {left : Option MetricTable} {table : MetricTable}
    (h : Abandoned left date ((s.deleted table date).inserted table date computedAt) s') :
    Abandoned left date s s' where
  lost := h.lost
  rows table' hleft := by
    rcases h.rows table' hleft with hsame | hnew
    · by_cases htable : table' = table
      · subst htable
        refine Or.inr ⟨computedAt, hsame.trans ?_⟩
        have hinserted := inserted_rows_self (s.deleted table' date) table' date computedAt
        rw [deleted_rows_self, List.nil_append] at hinserted
        exact hinserted
      · refine Or.inl (hsame.trans ?_)
        exact (inserted_rows_other _ computedAt (Or.inl htable)).trans
          (deleted_rows_other s (Or.inl htable))
    · exact Or.inr hnew
  others table' other hother :=
    (h.others table' other hother).trans ((inserted_rows_other _ computedAt (Or.inr hother)).trans
      (deleted_rows_other s (Or.inr hother)))

/-- The rewrites that succeed have met with no failure. -/
theorem rewrite_choices {table : MetricTable}
    (h : (rewrite table date computedAt).RunsWith (execTimed i) choices s (.ok ()) s') :
    choices.map Prod.fst = [.done, .done] := by
  rcases runsWith_bind h with ⟨error, heq, _⟩ | ⟨before, after, _, s₁, rfl, hdelete, hinsert⟩
  · cases heq
  · obtain ⟨m, ⟨rfl, _, _⟩ | ⟨_, heq, _⟩ | ⟨_, heq, _⟩⟩ :=
      runsWith_settled (fun _ => rfl) hdelete
    · obtain ⟨n, ⟨rfl, _, _⟩ | ⟨_, heq, _⟩ | ⟨_, heq, _⟩⟩ :=
        runsWith_settled (fun _ => rfl) hinsert
      · rfl
      · cases heq
      · cases heq
    · cases heq
    · cases heq

theorem rewriteTables_choices {tables : List MetricTable}
    (h : (rewriteTables date computedAt tables).RunsWith (execTimed i) choices s (.ok ()) s')
    (fates : List Fate) : emptied tables (choices.map Prod.fst ++ fates) = none := by
  induction tables generalizing choices s with
  | nil => rfl
  | cons table tables ih =>
      rcases runsWith_bind h with ⟨error, heq, _⟩ | ⟨before, after, _, s₁, rfl, hfirst, hrest⟩
      · cases heq
      · rw [List.map_append, rewrite_choices hfirst]
        exact ih hrest

theorem rewrite_failed {table : MetricTable} {failure : Failure} (tables : List MetricTable)
    (h : (rewrite table date computedAt).RunsWith (execTimed i) choices s (.error failure) s') :
    Abandoned (emptied (table :: tables) (choices.map Prod.fst)) date s s' := by
  rcases runsWith_bind h with
    ⟨error, _, hdelete⟩ | ⟨before, after, _, s₁, rfl, hdelete, hinsert⟩
  · obtain ⟨m, ⟨_, heq, _⟩ | ⟨rfl, _, rfl⟩ | ⟨rfl, _, rfl⟩⟩ :=
      runsWith_settled (fun _ => rfl) hdelete
    · cases heq
    · exact .of_rows fun _ _ => rfl
    · exact .of_deleted table fun _ _ => rfl
  · obtain ⟨m, ⟨rfl, _, rfl⟩ | ⟨_, heq, _⟩ | ⟨_, heq, _⟩⟩ :=
      runsWith_settled (fun _ => rfl) hdelete
    · obtain ⟨n, ⟨_, heq, _⟩ | ⟨rfl, _, rfl⟩ | ⟨rfl, _, rfl⟩⟩ :=
        runsWith_settled (fun _ => rfl) hinsert
      · cases heq
      · exact .of_deleted table fun _ _ => rfl
      · have hrest : Abandoned none date
            ((s.deleted table date).inserted table date computedAt)
            ((((s.deleted table date).later m).inserted table date computedAt).later n) :=
          .of_rows fun _ _ => rfl
        exact hrest.rewritten
    · cases heq
    · cases heq

theorem Abandoned.rewrittenTables {left : Option MetricTable} {tables : List MetricTable}
    (h : Abandoned left date (s.rewritten date computedAt tables) s') :
    Abandoned left date s s' := by
  induction tables generalizing s with
  | nil => exact h
  | cons table tables ih => exact (ih h).rewritten

theorem rewriteTables_failed {tables : List MetricTable} {failure : Failure}
    (h : (rewriteTables date computedAt tables).RunsWith (execTimed i) choices s
      (.error failure) s') :
    Abandoned (emptied tables (choices.map Prod.fst)) date s s' := by
  induction tables generalizing choices s with
  | nil => cases h
  | cons table tables ih =>
      rcases runsWith_bind h with ⟨error, _, hfirst⟩ | ⟨before, after, _, s₁, rfl, hfirst, hrest⟩
      · exact rewrite_failed tables hfirst
      · rw [List.map_append, rewrite_choices hfirst]
        obtain ⟨m, rfl⟩ := runs_rewrite hfirst.runs
        exact ((ih hrest).waited m).rewritten

/-! ## The rest of a call -/

/-- A command that reads or writes no metric table but to `SELECT` from it. -/
def Command.keepsTables : Command → Prop
  | .deleteFrom _ _ => False
  | .insertInto _ _ _ => False
  | _ => True

theorem tables_of_settle {α : Type} {fate : Fate} {value : α} {before after : Analytics}
    {answer : Except Failure α} (h : some (settle fate value before after) = some (answer, s'))
    (hafter : after.tables = before.tables) : s'.tables = before.tables := by
  cases fate with
  | done =>
      cases h
      exact hafter
  | failed =>
      cases h
      rfl
  | lost =>
      cases h
      exact hafter

theorem execTimed_tables {c : Command} (hc : c.keepsTables) {choice : Fate × Nat}
    {answer : Reply c} (h : execTimed i c choice s = some (answer, s')) :
    s'.tables = s.tables := by
  obtain ⟨⟨answer', s₁⟩, hexec, heq⟩ := Option.map_eq_some_iff.mp h
  cases heq
  cases c with
  | deleteFrom table date => exact hc.elim
  | insertInto table date computedAt => exact hc.elim
  | now =>
      cases hexec
      rfl
  | countRawRows date =>
      exact (tables_of_settle hexec rfl : s₁.tables = (s.began i date).tables)
  | selectFinal table date =>
      exact (tables_of_settle hexec rfl : s₁.tables = s.tables)
  | upsert date payload =>
      exact (tables_of_settle hexec rfl : s₁.tables = s.tables)
  | fetch date =>
      exact (tables_of_settle hexec rfl : s₁.tables = s.tables)
  | putObject date rows =>
      exact (tables_of_settle hexec rfl : s₁.tables = s.tables)

theorem uses_command {Q : Command → Prop} {c : Command} (hc : Q c) : (command c).Uses Q := by
  refine ⟨hc, ?_⟩
  intro answer
  cases answer with
  | ok value => trivial
  | error failure => trivial

theorem uses_buildMetricPayload {Q : Command → Prop} {date : Date}
    (hselect : ∀ table, Q (.selectFinal table date)) (computedAt : Nat) :
    (buildMetricPayload date computedAt).Uses Q := by
  apply uses_bind (uses_command (hselect .dailyDau))
  intro _
  apply uses_bind (uses_command (hselect .dailyAvgWatchTime))
  intro _
  apply uses_bind (uses_command (hselect .dailyConversion))
  intro _
  apply uses_bind (uses_command (hselect .dailyRetention))
  intro _
  apply uses_bind (uses_command (hselect .dailyTopMovies))
  intro _
  apply uses_bind (uses_command (hselect .deviceDistribution))
  intro _
  trivial

theorem uses_upsertMetrics {Q : Command → Prop} {date : Date} {payload : List Metric}
    (hupsert : Q (.upsert date payload)) : (upsertMetrics date payload).Uses Q := by
  apply uses_retry
  split
  · trivial
  · exact uses_command hupsert

/-- What follows the rewrites. -/
def publish (date : Date) (computedAt processedRows : Nat) : Job AggregationResult := do
  let metrics ← buildMetricPayload date computedAt
  upsertMetrics date metrics
  return ⟨date, processedRows, metrics.length⟩

theorem uses_publish (date : Date) (computedAt processedRows : Nat) :
    (publish date computedAt processedRows).Uses Command.keepsTables := by
  apply uses_bind (uses_buildMetricPayload (fun _ => trivial) computedAt)
  intro metrics
  exact uses_bind (uses_upsertMetrics trivial) fun _ => trivial

theorem publish_rows {processedRows : Nat} {result : Except Failure AggregationResult}
    (h : (publish date computedAt processedRows).Runs (execTimed i) s result s') :
    s'.tables = s.tables := by
  have htrans : ∀ s s' s'' : Analytics, s'.tables = s.tables → s''.tables = s'.tables →
      s''.tables = s.tables := fun _ _ _ hfirst hsecond => hsecond.trans hfirst
  exact h.preserves (R := fun s s' => s'.tables = s.tables) (fun _ => rfl) htrans
    (fun _ _ _ _ _ hc hexec => execTimed_tables hc hexec)
    (uses_publish date computedAt processedRows)

/-- A call that raises loses the rows of the abandoned table and of no other. -/
theorem aggregateForDate_failed {failure : Failure}
    (h : (aggregateForDate date).RunsWith (execTimed i) choices s (.error failure) s') :
    Abandoned (abandoned (choices.map Prod.fst)) date s s' := by
  rw [aggregateForDate_eq] at h
  rcases runsWith_bind h with ⟨_, _, hcount⟩ | ⟨_, _, _, _, rfl, hcount, h⟩
  · obtain ⟨_, _, _, rfl, hexec, rfl⟩ := runsWith_command hcount
    have htables : _ = (s.began i date).tables := tables_of_settle hexec rfl
    exact .of_rows fun table other => by
      simp only [Analytics.rows, Analytics.later, htables]
      rfl
  obtain ⟨_, _, m, rfl, hexec, rfl⟩ := runsWith_command hcount
  obtain ⟨_, rfl⟩ := settle_ok (Option.some.inj hexec)
  rcases runsWith_bind h with ⟨_, _, hnow⟩ | ⟨_, _, started, _, rfl, hnow, h⟩
  · obtain ⟨_, _, _, _, hexec, _⟩ := runsWith_command hnow
    cases hexec
  obtain ⟨_, _, n, rfl, hexec, rfl⟩ := runsWith_command hnow
  cases hexec
  have hbegan : ∀ {left}, Abandoned left date (((s.began i date).later m).later n) s' →
      Abandoned left date s s' := fun h => ⟨h.lost, h.rows, h.others⟩
  apply hbegan
  rcases runsWith_bind h with ⟨_, _, hrewrites⟩ | ⟨_, _, _, _, rfl, hrewrites, h⟩
  · exact rewriteTables_failed hrewrites
  · have hnone := rewriteTables_choices hrewrites
    obtain ⟨k, rfl⟩ := runs_rewriteTables hrewrites.runs
    have htables := publish_rows h.runs
    simp only [abandoned, List.map_append, List.map_cons, List.cons_append,
      List.nil_append, List.drop_succ_cons, List.drop_zero, hnone]
    have hrest : Abandoned none date
        ((((s.began i date).later m).later n).rewritten date
          (((s.began i date).later m).clock / 1000000) metricTables) s' :=
      .of_rows fun table other => by
        simp only [Analytics.rows, htables]
        rfl
    exact hrest.rewrittenTables

theorem select_eq_nil_iff (table : MetricTable) (log : EventLog) :
    select table log date computedAt = [] ↔ select table log date 0 = [] := by
  rw [← select_untimed table log date computedAt, List.map_eq_nil_iff]

/-- A call that raises loses data exactly if it breaks off between the `DELETE` and
    the `INSERT` of a table that had rows and would have got some. -/
theorem failed_aggregation {failure : Failure}
    (h : (aggregateForDate date).RunsWith (execTimed i) choices s (.error failure) s') :
    OldOrNew date s s' ↔ ∀ table, abandoned (choices.map Prod.fst) = some table →
      s.rows table date = [] ∨ select table s.movieEvents date 0 = [] := by
  have hleft := aggregateForDate_failed h
  constructor
  · intro hkept table habandoned
    have hlost := hleft.lost table habandoned
    rcases hkept.rows table with hold | ⟨computedAt, hnew⟩
    · exact Or.inl (hold.symm.trans hlost)
    · exact Or.inr ((select_eq_nil_iff table _).mp (hnew.symm.trans hlost))
  · intro hnone
    refine ⟨fun table => ?_, hleft.others⟩
    by_cases htable : abandoned (choices.map Prod.fst) = some table
    · have hlost := hleft.lost table htable
      rcases hnone table htable with hold | hnew
      · exact Or.inl (hlost.trans hold.symm)
      · exact Or.inr ⟨0, hlost.trans hnew.symm⟩
    · exact hleft.rows table htable

end Failed

/-- Two days with events of which the first has been aggregated. -/
def aggregatedDay : Analytics :=
  .initial 0 twoDays fun
    | .dailyDau => [⟨5, 1, 0⟩]
    | _ => []

theorem failed_aggregation_sample :
    ∃ s', (aggregateForDate 5).RunsWith (execTimed 0)
        [(.done, 0), (.done, 0), (.failed, 0)] aggregatedDay (.error .raised) s' ∧
      OldOrNew 5 aggregatedDay s' := by
  obtain ⟨s', hruns, -⟩ : ∃ s', (aggregateForDate 5).RunsWith (execTimed 0)
      [(.done, 0), (.done, 0), (.failed, 0)] aggregatedDay (.error .raised) s' ∧
        s'.rows .dailyDau 5 = [⟨5, 1, 0⟩] :=
    Program.exists_runsWith (by decide +kernel)
  refine ⟨s', hruns, (failed_aggregation hruns).mpr ?_⟩
  intro table habandoned
  cases habandoned

/-- An `INSERT` that fails after the `DELETE` of its table. -/
theorem failed_aggregation_loses :
    ¬ ∀ (i : Nat) (date : Date) (choices : List (Fate × Nat)) (failure : Failure)
        (s s' : Analytics),
      (aggregateForDate date).RunsWith (execTimed i) choices s (.error failure) s' →
        OldOrNew date s s' := by
  intro hkept
  obtain ⟨s', hruns, hrows⟩ : ∃ s', (aggregateForDate 5).RunsWith (execTimed 0)
      [(.done, 0), (.done, 0), (.done, 0), (.failed, 0)] aggregatedDay (.error .raised) s' ∧
        s'.rows .dailyDau 5 = [] :=
    Program.exists_runsWith (by decide +kernel)
  rcases (hkept 0 5 _ _ _ s' hruns).rows .dailyDau with hold | ⟨computedAt, hnew⟩
  · rw [hrows] at hold
    exact absurd hold (by decide +kernel)
  · rw [hrows] at hnew
    cases hnew

end SoaHomework.MovieAnalytics

import SoaHomework.DailyMetrics
import SoaHomework.RelyGuarantee

/-!
# Runs of the aggregation service

Aggregations that do not overlap, in any interleaving with exports, arriving
events and the passage of time. Commands may fail, and jobs may be stopped. What
an aggregation knows is about its own date, which no other one changes while it
is the last to have begun (`aggregation`); after it has succeeded, the rows of
its date in `daily_metrics` are the payload exactly when no stored movie has
dropped out of the top ten (`metrics_exact`).
-/

namespace SoaHomework.MovieAnalytics

open StatementProgram

/-! ## The record describes the tables -/

def Source.Describes (s : Analytics) (table : MetricTable) (date : Date) : Source → Prop
  | .unknown => True
  | .deleted => s.rows table date = []
  | .selected log computedAt =>
      s.rows table date = select table log date computedAt ∧ log ⊆ s.movieEvents

/-- The stored keys and the rows of the tables come from events. -/
structure Sourced (s : Analytics) : Prop where
  keys : ∀ key ∈ s.dailyMetrics, StoredBy s.movieEvents key
  rows : ∀ table date, (s.source table date).Describes s table date

theorem setSource_self (s : Analytics) (table : MetricTable) (date : Date) (source : Source) :
    s.setSource table date source table date = source := by
  simp [Analytics.setSource]

theorem setSource_other {s : Analytics} {table table' : MetricTable} {date date' : Date}
    {source : Source} (h : table' ≠ table ∨ date' ≠ date) :
    s.setSource table date source table' date' = s.source table' date' := by
  by_cases htable : table' = table
  · subst htable
    have hdate : date' ≠ date := h.resolve_left fun hne => hne rfl
    simp [Analytics.setSource, Function.update_of_ne hdate]
  · simp [Analytics.setSource, Function.update_of_ne htable]

theorem Source.Describes.of_rows {source : Source} {s s' : Analytics} {table : MetricTable}
    {date : Date} (h : source.Describes s table date)
    (hrows : s'.rows table date = s.rows table date)
    (hevents : s.movieEvents ⊆ s'.movieEvents) : source.Describes s' table date := by
  cases source with
  | unknown => trivial
  | deleted => exact hrows.trans h
  | selected log computedAt => exact ⟨hrows.trans h.1, fun row hrow => hevents (h.2 hrow)⟩

section Preserved

variable {s : Analytics} (h : Sourced s) {table : MetricTable} {date : Date} {computedAt : Nat}

include h

theorem Sourced.deleted : Sourced (s.deleted table date) where
  keys := h.keys
  rows table' date' := by
    by_cases hsame : table' = table ∧ date' = date
    · obtain ⟨rfl, rfl⟩ := hsame
      simp only [Analytics.deleted, setSource_self]
      exact deleted_rows_self s table' date'
    · rw [Decidable.not_and_iff_or_not] at hsame
      simp only [Analytics.deleted, setSource_other hsame]
      exact (h.rows table' date').of_rows (deleted_rows_other s hsame) fun _ hrow => hrow

/-- An `INSERT` after the `DELETE` of the same rows. -/
theorem Sourced.inserted (hdeleted : s.source table date = .deleted) :
    Sourced (s.inserted table date computedAt) where
  keys := h.keys
  rows table' date' := by
    by_cases hsame : table' = table ∧ date' = date
    · obtain ⟨rfl, rfl⟩ := hsame
      have hempty : s.rows table' date' = [] := by
        have hdescribes := h.rows table' date'
        rwa [hdeleted] at hdescribes
      simp only [Analytics.inserted, setSource_self]
      refine ⟨?_, fun _ hrow => hrow⟩
      exact (inserted_rows_self s table' date' computedAt).trans (by rw [hempty, List.nil_append])
    · rw [Decidable.not_and_iff_or_not] at hsame
      simp only [Analytics.inserted, setSource_other hsame]
      exact (h.rows table' date').of_rows (inserted_rows_other s computedAt hsame)
        fun _ hrow => hrow

theorem Sourced.began (i : Nat) : Sourced (s.began i date) := ⟨h.keys, h.rows⟩

theorem Sourced.exported (rows : List ExportRow) : Sourced (s.exported date rows) :=
  ⟨h.keys, h.rows⟩

theorem Sourced.upserted (i : Nat) {payload : List Metric}
    (hpayload : ∀ metric ∈ payload, StoredBy s.movieEvents (metric.key date)) :
    Sourced (s.upserted i date payload) where
  keys key hkey := by
    by_cases hmem : ∀ metric ∈ payload, metric.key date ≠ key
    · have hlookup : (s.upserted i date payload).dailyMetrics.lookup key =
          s.dailyMetrics.lookup key := lookup_upsertRows_of_notMem hmem
      have hsome := AList.lookup_isSome.mpr hkey
      refine h.keys key (AList.lookup_isSome.mp ?_)
      rw [← hlookup]
      exact hsome
    · push Not at hmem
      obtain ⟨metric, hmetric, rfl⟩ := hmem
      exact hpayload metric hmetric
  rows := h.rows

theorem Sourced.after (change : Change) : Sourced (s.after change) := by
  cases change with
  | arrive event =>
      have hsub : s.movieEvents ⊆ movieEventsMv event :: s.movieEvents :=
        fun _ hrow => List.mem_cons_of_mem _ hrow
      exact ⟨fun key hkey => (h.keys key hkey).mono hsub,
        fun table date => (h.rows table date).of_rows rfl hsub⟩
  | tick microseconds => exact ⟨h.keys, h.rows⟩

end Preserved

theorem sourced_initial (clock : Nat) (log : EventLog)
    (tables : (table : MetricTable) → List (Row table)) :
    Sourced (.initial clock log tables) where
  keys key hkey := absurd hkey (AList.notMem_empty key)
  rows _ _ := trivial

/-! ## What aggregations rely on and guarantee -/

/-- The record and the stored metrics of a date are as they were. -/
structure KeptFor (date : Date) (s s' : Analytics) : Prop where
  source : ∀ table, s'.source table date = s.source table date
  metrics : ∀ key : MetricKey, key.metricDate = date →
    s'.dailyMetrics.lookup key = s.dailyMetrics.lookup key
  latest : s'.latest date = s.latest date

/-- Nothing that aggregation `i` knows has changed. -/
structure Relied (i : Nat) (s s' : Analytics) : Prop where
  kept : ∀ date, KeptFor date s s'
  calls : s'.calls i = s.calls i

/-- An aggregation changes a date only when it is the last to have begun for it. -/
structure Guaranteed (request : Request) (i : Nat) (s s' : Analytics) : Prop where
  calls : ∀ j ≠ i, s'.calls j = s.calls j
  dates : ∀ date, (request.isAggregation = true ∧ s'.latest date = some i) ∨ KeptFor date s s'

theorem KeptFor.refl (date : Date) (s : Analytics) : KeptFor date s s :=
  ⟨fun _ => rfl, fun _ _ => rfl, rfl⟩

theorem KeptFor.trans {date : Date} {s s' s'' : Analytics} (h : KeptFor date s s')
    (h' : KeptFor date s' s'') : KeptFor date s s'' :=
  ⟨fun table => (h'.source table).trans (h.source table),
    fun key hkey => (h'.metrics key hkey).trans (h.metrics key hkey), h'.latest.trans h.latest⟩

theorem KeptFor.mem_iff {date : Date} {s s' : Analytics} (h : KeptFor date s s')
    {key : MetricKey} (hkey : key.metricDate = date) :
    key ∈ s'.dailyMetrics ↔ key ∈ s.dailyMetrics := by
  rw [← AList.lookup_isSome, ← AList.lookup_isSome, h.metrics key hkey]

theorem Guaranteed.refl (request : Request) (i : Nat) (s : Analytics) :
    Guaranteed request i s s :=
  ⟨fun _ _ => rfl, fun date => Or.inr (.refl date s)⟩

/-- The payload for tables that were selected from `logs`. -/
def selectedPayload (date : Date) (computedAt : Nat) (logs : MetricTable → EventLog) :
    List Metric :=
  payloadOf computedAt (selectedRows date computedAt logs)

/-- Aggregation `i` of `date` has rewritten the tables `done`. -/
structure Rewriting (i : Nat) (date : Date) (computedAt : Nat) (done : List MetricTable)
    (s : Analytics) : Prop where
  latest : s.latest date = some i
  call : ∃ found, s.calls i = some ⟨found, []⟩ ∧ ∀ key : MetricKey, key.metricDate = date →
    s.dailyMetrics.lookup key = found.lookup key
  selected : ∀ table ∈ done, ∃ log, s.source table date = .selected log computedAt ∧
    ∀ key ∈ s.dailyMetrics, key.metricDate = date → StoredBy log key

/-- Aggregation `i` of `date` has rewritten all tables and may have tried to store
    the payload. -/
structure Storing (i : Nat) (date : Date) (computedAt : Nat) (logs : MetricTable → EventLog)
    (found : DailyMetrics) (s : Analytics) : Prop where
  latest : s.latest date = some i
  call : ∃ payload, s.calls i = some ⟨found, payload⟩
  sources : ∀ table, s.source table date = .selected (logs table) computedAt
  covered : ∀ key ∈ found, key.metricDate = date → ∀ table, StoredBy (logs table) key
  others : ∀ key : MetricKey, key.metricDate = date →
    (∀ metric ∈ selectedPayload date computedAt logs, metric.key date ≠ key) →
    s.dailyMetrics.lookup key = found.lookup key

/-- Aggregation `i` of `date` has stored the payload, and none has begun for the
    date since. -/
structure Stored (i : Nat) (date : Date) (computedAt : Nat) (logs : MetricTable → EventLog)
    (found : DailyMetrics) (s : Analytics) : Prop
    extends Storing i date computedAt logs found s where
  stored : ∀ metric ∈ selectedPayload date computedAt logs, ∃ now,
    s.dailyMetrics.lookup (metric.key date) = some ⟨metric.metricValue, now, metric.metadata⟩

/-- What is known of an aggregation that has succeeded. -/
def Succeeded (i : Nat) (date : Date) (s : Analytics) : Prop :=
  ∃ computedAt logs found,
    s.calls i = some ⟨found, selectedPayload date computedAt logs⟩ ∧
    (s.latest date = some i → Stored i date computedAt logs found s)

def aggregation : Discipline Command Failure Response Request Analytics where
  inv := Sourced
  rely request i s s' := request.isAggregation = true → Relied i s s'
  guarantee := Guaranteed
  unused _ _ := True
  compatible request request' := ¬ (request.isAggregation = true ∧ request'.isAggregation = true)
  permitted _ _ _ _ := True
  known _ _ _ _ := True
  answer request i result s := ∀ outcome, result = .ok (.aggregated outcome) →
    request.isAggregation = true ∧ Succeeded i outcome.metricDate s

section Stable

variable {i : Nat} {date : Date} {computedAt : Nat} {s s' : Analytics} (h : KeptFor date s s')
  (hcalls : s'.calls i = s.calls i)

include h hcalls

theorem Rewriting.of_kept {done : List MetricTable} (hs : Rewriting i date computedAt done s) :
    Rewriting i date computedAt done s' where
  latest := h.latest.trans hs.latest
  call := by
    obtain ⟨found, hcall, hlookup⟩ := hs.call
    refine ⟨found, hcalls.trans hcall, ?_⟩
    intro key hkey
    exact (h.metrics key hkey).trans (hlookup key hkey)
  selected table htable := by
    obtain ⟨log, hsource, hkeys⟩ := hs.selected table htable
    refine ⟨log, (h.source table).trans hsource, ?_⟩
    intro key hkey hdate
    exact hkeys key ((h.mem_iff hdate).mp hkey) hdate

theorem Storing.of_kept {logs : MetricTable → EventLog} {found : DailyMetrics}
    (hs : Storing i date computedAt logs found s) : Storing i date computedAt logs found s' where
  latest := h.latest.trans hs.latest
  call := hs.call.imp fun _ hcall => hcalls.trans hcall
  sources table := (h.source table).trans (hs.sources table)
  covered := hs.covered
  others key hkey hnone := (h.metrics key hkey).trans (hs.others key hkey hnone)

theorem Stored.of_kept {logs : MetricTable → EventLog} {found : DailyMetrics}
    (hs : Stored i date computedAt logs found s) : Stored i date computedAt logs found s' where
  toStoring := hs.toStoring.of_kept h hcalls
  stored metric hmetric := by
    obtain ⟨now, hlookup⟩ := hs.stored metric hmetric
    exact ⟨now, (h.metrics _ rfl).trans hlookup⟩

theorem Succeeded.of_kept (hs : Succeeded i date s) : Succeeded i date s' := by
  obtain ⟨computedAt, logs, found, hcall, hstored⟩ := hs
  refine ⟨computedAt, logs, found, hcalls.trans hcall, ?_⟩
  intro hlatest
  exact (hstored (h.latest.symm.trans hlatest)).of_kept h hcalls

end Stable

/-- The tables that have all been rewritten, each from its own events. -/
theorem exists_storing {i : Nat} {date : Date} {computedAt : Nat} {s : Analytics}
    (h : ∀ table ∈ metricTables ++ [], Rewriting i date computedAt [table] s) :
    ∃ logs found, Storing i date computedAt logs found s := by
  have hall : ∀ table, Rewriting i date computedAt [table] s := by
    intro table
    exact h table (List.mem_append_left _ (mem_metricTables table))
  have hselected : ∀ table, ∃ log, s.source table date = .selected log computedAt ∧
      ∀ key ∈ s.dailyMetrics, key.metricDate = date → StoredBy log key := by
    intro table
    exact (hall table).selected table List.mem_cons_self
  choose logs hsources hkeys using hselected
  obtain ⟨found, hcall, hlookup⟩ := (hall .dailyDau).call
  have hmem : ∀ key ∈ found, key.metricDate = date → key ∈ s.dailyMetrics := by
    intro key hkey hdate
    rw [← AList.lookup_isSome, hlookup key hdate]
    exact AList.lookup_isSome.mpr hkey
  refine ⟨logs, found, (hall .dailyDau).latest, ⟨[], hcall⟩, hsources, ?_, ?_⟩
  · intro key hkey hdate table
    exact hkeys table key (hmem key hkey hdate) hdate
  · intro key hdate _
    exact hlookup key hdate

section Upserted

variable {i : Nat} {date : Date} {computedAt : Nat} {logs : MetricTable → EventLog}
  {found : DailyMetrics} {s : Analytics} (hs : Storing i date computedAt logs found s)

include hs

theorem Storing.upserted_calls (payload : List Metric) :
    (s.upserted i date payload).calls i = some ⟨found, payload⟩ := by
  obtain ⟨before, hcall⟩ := hs.call
  have hupdate : (s.upserted i date payload).calls i =
      (s.calls i).map fun call => { call with payload := payload } :=
    Function.update_self _ _ _
  rw [hupdate, hcall]
  rfl

theorem Storing.upserted :
    Stored i date computedAt logs found
      (s.upserted i date (selectedPayload date computedAt logs)) where
  latest := hs.latest
  call := ⟨_, hs.upserted_calls _⟩
  sources := hs.sources
  covered := hs.covered
  others key hdate hnone := by
    rw [upserted_dailyMetrics, lookup_upsertRows_of_notMem hnone]
    exact hs.others key hdate hnone
  stored _ hmetric := by
    refine ⟨s.clock, ?_⟩
    rw [upserted_dailyMetrics]
    exact lookup_upsertRows_of_mem (payload_keys_nodup date computedAt logs) hmetric

end Upserted

/-! ## Commands -/

/-- A postcondition of the programs that return. -/
def OnOk {α : Type} (post : α → Analytics → Prop) : Except Failure α → Analytics → Prop :=
  fun result s => ∀ value, result = .ok value → post value s

/-- What holds after a command that has been executed, and after one that has raised. -/
def Either {α : Type} (done raised : Analytics → Prop) : Except Failure α → Analytics → Prop
  | .ok _ => done
  | .error _ => raised

/-- What holds when a part of request `i` returns. -/
abbrev Gives {α : Type} (request : Request) (i : Nat) (pre : Analytics → Prop) (p : Job α)
    (post : α → Analytics → Prop) : Prop :=
  aggregation.Triple service request i pre p (OnOk post)

section Commands

variable {request : Request} {i : Nat} {α β : Type}

theorem gives_bind {pre : Analytics → Prop} {p : Job α} {f : α → Job β}
    {middle : α → Analytics → Prop} {post : β → Analytics → Prop}
    (hfirst : Gives request i pre p middle)
    (hrest : ∀ value, Gives request i (middle value) (f value) post) :
    Gives request i pre (p >>= f) post := by
  apply Discipline.Triple.bind (OnOk middle) hfirst
  · intro value
    exact (hrest value).weaken _ fun s _ h => h value rfl
  · intro error s _ _ value heq
    cases heq

theorem gives_ret {pre : Analytics → Prop} {value : α} {post : α → Analytics → Prop}
    (h : ∀ s, Sourced s → pre s → post value s) : Gives request i pre (.ret value) post := by
  intro s hinv hpre value' heq
  cases heq
  exact h s hinv hpre

theorem gives_command {pre : Analytics → Prop} {c : Command} {post : Result c → Analytics → Prop}
    (hstable : aggregation.Stable request i pre)
    (hexec : ∀ s fate result s', Sourced s → pre s → exec i c fate s = some (result, s') →
      Sourced s' ∧ Guaranteed request i s s' ∧ ∀ value, result = .ok value → post value s') :
    Gives request i pre (command c) post := by
  apply Discipline.Triple.step (OnOk post) hstable
  · intro s hinv hpre
    exact ⟨trivial, fun _ fate result s' hrun => hexec s fate result s' hinv hpre hrun⟩
  · intro answer
    cases answer with
    | ok value => exact fun s _ h => h
    | error failure =>
        intro s _ _ value heq
        cases heq

/-- A command that has the effect `after` or fails. -/
theorem gives_settle {pre : Analytics → Prop} {c : Command} {post : Result c → Analytics → Prop}
    (value : Analytics → Result c) (after : Analytics → Analytics)
    (hstable : aggregation.Stable request i pre)
    (hsettle : ∀ s fate, exec i c fate s = some (settle fate (value s) s (after s)))
    (heffect : ∀ s, Sourced s → pre s → Sourced (after s) ∧ Guaranteed request i s (after s) ∧
      post (value s) (after s)) :
    Gives request i pre (command c) post := by
  apply gives_command hstable
  intro s fate result s' hinv hpre hrun
  rw [hsettle, Option.some.injEq] at hrun
  obtain ⟨hsourced, hguarantee, hpost⟩ := heffect s hinv hpre
  cases fate with
  | done =>
      cases hrun
      refine ⟨hsourced, hguarantee, ?_⟩
      intro value' heq
      cases heq
      exact hpost
  | failed =>
      cases hrun
      exact ⟨hinv, .refl _ _ _, fun _ heq => by cases heq⟩
  | lost =>
      cases hrun
      exact ⟨hsourced, hguarantee, fun _ heq => by cases heq⟩

/-- A command that only reads. -/
theorem gives_read {pre : Analytics → Prop} {c : Command} (value : Analytics → Result c)
    (hstable : aggregation.Stable request i pre)
    (hread : ∀ s fate, exec i c fate s = some (settle fate (value s) s s)) :
    Gives request i pre (command c) fun _ => pre :=
  gives_settle value (fun s => s) hstable hread fun _ hinv hpre => ⟨hinv, .refl _ _ _, hpre⟩

theorem stable_true : aggregation.Stable request i fun _ => True := fun _ _ _ _ _ => trivial

theorem gives_now {pre : Analytics → Prop} (hstable : aggregation.Stable request i pre) :
    Gives request i pre (command .now) fun _ s => pre s := by
  apply gives_command hstable
  intro _ fate result s' hinv hpre hrun
  cases hrun
  exact ⟨hinv, .refl _ _ _, fun _ _ => hpre⟩

end Commands

/-! ## An aggregation -/

section Aggregate

variable {request : Request} (hrequest : request.isAggregation = true) {i : Nat} {date : Date}
  {computedAt : Nat}

include hrequest

theorem stable_of_relied {assertion : Analytics → Prop}
    (h : ∀ s s', Relied i s s' → assertion s → assertion s') :
    aggregation.Stable request i assertion :=
  fun s s' _ hrely hs => h s s' (hrely hrequest) hs

/-- A change of the date that the aggregation is the last to have begun for. -/
theorem guaranteed_of_latest (date : Date) {s s' : Analytics}
    (hcalls : ∀ j ≠ i, s'.calls j = s.calls j)
    (hlatest : s'.latest date = some i) (hothers : ∀ other, other ≠ date → KeptFor other s s') :
    Guaranteed request i s s' where
  calls := hcalls
  dates other := by
    by_cases hother : other = date
    · exact Or.inl ⟨hrequest, hother ▸ hlatest⟩
    · exact Or.inr (hothers other hother)

theorem gives_countRawRows (computedAt : Nat) :
    Gives request i (fun _ => True) (command (.countRawRows date)) fun _ =>
      Rewriting i date computedAt [] := by
  -- the aggregation begins, also when the command fails
  apply gives_command stable_true
  intro s fate result s' hinv _ hrun
  have hbegan : s' = s.began i date := by
    cases fate <;> (cases hrun; rfl)
  subst hbegan
  refine ⟨hinv.began i, guaranteed_of_latest hrequest date ?_ ?_ ?_, ?_⟩
  · intro j hj
    exact Function.update_of_ne hj _ _
  · exact Function.update_self _ _ _
  · intro other hother
    exact ⟨fun _ => rfl, fun _ _ => rfl, Function.update_of_ne hother _ _⟩
  · intro _ _
    refine ⟨Function.update_self _ _ _, ⟨s.dailyMetrics, Function.update_self _ _ _, ?_⟩, ?_⟩
    · exact fun _ _ => rfl
    · exact fun table htable => absurd htable List.not_mem_nil

theorem gives_deleteFrom {done : List MetricTable} {table : MetricTable} (htable : table ∉ done) :
    Gives request i (Rewriting i date computedAt done) (command (.deleteFrom table date))
      fun _ s => Rewriting i date computedAt done s ∧ s.source table date = .deleted := by
  refine gives_settle (fun _ => ()) (fun s => s.deleted table date)
    (stable_of_relied hrequest fun s s' h hs => hs.of_kept (h.kept date) h.calls)
    (fun s fate => rfl) ?_
  intro s hinv hs
  refine ⟨hinv.deleted, guaranteed_of_latest hrequest date (fun _ _ => rfl) hs.latest ?_,
    ⟨hs.latest, hs.call, ?_⟩, setSource_self s table date .deleted⟩
  · intro other hother
    exact ⟨fun table' => setSource_other (Or.inr hother), fun _ _ => rfl, rfl⟩
  · intro table' htable'
    have hne : table' ≠ table := fun heq => htable (heq ▸ htable')
    obtain ⟨log, hsource, hkeys⟩ := hs.selected table' htable'
    exact ⟨log, (setSource_other (Or.inl hne)).trans hsource, hkeys⟩

theorem gives_insertInto {done : List MetricTable} {table : MetricTable} (htable : table ∉ done) :
    Gives request i
      (fun s => Rewriting i date computedAt done s ∧ s.source table date = .deleted)
      (command (.insertInto table date computedAt))
      fun _ => Rewriting i date computedAt (table :: done) := by
  refine gives_settle (fun _ => ()) (fun s => s.inserted table date computedAt)
    (stable_of_relied hrequest ?_) (fun s fate => rfl) ?_
  · rintro s s' h ⟨hs, hdeleted⟩
    exact ⟨hs.of_kept (h.kept date) h.calls, ((h.kept date).source table).trans hdeleted⟩
  · rintro s hinv ⟨hs, hdeleted⟩
    refine ⟨hinv.inserted hdeleted,
      guaranteed_of_latest hrequest date (fun _ _ => rfl) hs.latest ?_,
      ⟨hs.latest, hs.call, ?_⟩⟩
    · intro other hother
      exact ⟨fun table' => setSource_other (Or.inr hother), fun _ _ => rfl, rfl⟩
    · intro table' htable'
      rcases List.mem_cons.mp htable' with rfl | htable'
      · exact ⟨s.movieEvents, setSource_self s table' date _, fun key hkey _ => hinv.keys key hkey⟩
      · have hne : table' ≠ table := fun heq => htable (heq ▸ htable')
        obtain ⟨log, hsource, hkeys⟩ := hs.selected table' htable'
        exact ⟨log, (setSource_other (Or.inl hne)).trans hsource, hkeys⟩

theorem gives_rewriteTables {done tables : List MetricTable} (hnodup : (tables ++ done).Nodup) :
    Gives request i (Rewriting i date computedAt done) (rewriteTables date computedAt tables)
      fun _ s => ∀ table ∈ tables ++ done, Rewriting i date computedAt [table] s := by
  induction tables generalizing done with
  | nil =>
      apply gives_ret
      intro s _ hs table htable
      refine ⟨hs.latest, hs.call, ?_⟩
      intro table' htable'
      exact hs.selected table' (List.mem_singleton.mp htable' ▸ htable)
  | cons table tables ih =>
      obtain ⟨htable, hrest⟩ := List.nodup_cons.mp hnodup
      have hnotDone : table ∉ done := fun hmem => htable (List.mem_append_right _ hmem)
      have hnodup' : (tables ++ table :: done).Nodup :=
        (List.perm_middle.nodup_iff).mpr hnodup
      have hrewrite : Gives request i (Rewriting i date computedAt done)
          (rewrite table date computedAt) fun _ => Rewriting i date computedAt (table :: done) :=
        gives_bind (gives_deleteFrom hrequest hnotDone) fun _ =>
          gives_insertInto hrequest hnotDone
      apply gives_bind hrewrite
      intro _
      refine (ih hnodup').mono (fun _ _ h => h) ?_
      intro result s _ hpost value heq table' htable'
      exact hpost value heq table' (List.perm_middle.mem_iff.mpr htable')

variable {logs : MetricTable → EventLog} {found : DailyMetrics}

/-- A `SELECT ... FINAL` reads the rows that the aggregation has inserted. -/
theorem gives_selectFinal {β : Type} {table : MetricTable} {f : List (Row table) → Job β}
    {post : β → Analytics → Prop}
    (h : Gives request i (Storing i date computedAt logs found)
      (f (selectedRows date computedAt logs table)) post) :
    Gives request i (Storing i date computedAt logs found)
      (command (.selectFinal table date) >>= f) post := by
  have hstable : aggregation.Stable request i (Storing i date computedAt logs found) :=
    stable_of_relied hrequest fun s s' hrely hs => hs.of_kept (hrely.kept date) hrely.calls
  have hread : Gives request i (Storing i date computedAt logs found)
      (command (.selectFinal table date)) fun rows s =>
        rows = selectedRows date computedAt logs table ∧
          Storing i date computedAt logs found s := by
    refine gives_settle (fun s => s.readFinal table date) (fun s => s) hstable
      (fun s fate => rfl) ?_
    intro s hinv hs
    have hdescribes := hinv.rows table date
    rw [hs.sources table] at hdescribes
    exact ⟨hinv, .refl _ _ _, readFinal_of_rows hdescribes.1, hs⟩
  apply gives_bind hread
  intro rows
  apply Discipline.Triple.pure
  rintro rfl
  exact h

theorem gives_buildMetricPayload :
    Gives request i (Storing i date computedAt logs found) (buildMetricPayload date computedAt)
      fun payload s => payload = selectedPayload date computedAt logs ∧
        Storing i date computedAt logs found s := by
  apply gives_selectFinal hrequest
  apply gives_selectFinal hrequest
  apply gives_selectFinal hrequest
  apply gives_selectFinal hrequest
  apply gives_selectFinal hrequest
  apply gives_selectFinal hrequest
  apply gives_ret
  intro s _ hs
  exact ⟨rfl, hs⟩

/-- An attempt of `upsert_metrics` that fails may be repeated. -/
theorem gives_upsertMetrics :
    Gives request i (Storing i date computedAt logs found)
      (upsertMetrics date (selectedPayload date computedAt logs))
      fun _ s => Stored i date computedAt logs found s ∧
        s.calls i = some ⟨found, selectedPayload date computedAt logs⟩ := by
  have hstable : aggregation.Stable request i (Storing i date computedAt logs found) :=
    stable_of_relied hrequest fun s s' hrely hs => hs.of_kept (hrely.kept date) hrely.calls
  have hne : selectedPayload date computedAt logs ≠ [] := payloadOf_ne_nil logs
  rw [upsertMetrics, if_neg hne]
  apply Discipline.Triple.retry retries
  apply Discipline.Triple.step (Either
    (fun s => Stored i date computedAt logs found s ∧
      s.calls i = some ⟨found, selectedPayload date computedAt logs⟩)
    (Storing i date computedAt logs found)) hstable
  · intro s hinv hs
    refine ⟨trivial, ?_⟩
    intro _ fate answer s' hrun
    have hlogs : ∀ table, logs table ⊆ s.movieEvents := by
      intro table
      have hdescribes := hinv.rows table date
      rw [hs.sources table] at hdescribes
      exact hdescribes.2
    have hsourced : Sourced (s.upserted i date (selectedPayload date computedAt logs)) :=
      hinv.upserted i fun metric hmetric => payload_storedBy hlogs hmetric
    have hguarantee : Guaranteed request i s
        (s.upserted i date (selectedPayload date computedAt logs)) := by
      apply guaranteed_of_latest hrequest date
      · intro j hj
        exact Function.update_of_ne hj _ _
      · exact hs.latest
      · intro other hother
        refine ⟨fun _ => rfl, ?_, rfl⟩
        intro key hkey
        rw [upserted_dailyMetrics]
        apply lookup_upsertRows_of_notMem
        intro metric _ heq
        exact hother (hkey.symm.trans (congrArg MetricKey.metricDate heq).symm)
    have hstored := hs.upserted
    have hcall := hs.upserted_calls (selectedPayload date computedAt logs)
    cases fate with
    | done =>
        cases hrun
        exact ⟨hsourced, hguarantee, hstored, hcall⟩
    | failed =>
        cases hrun
        exact ⟨hinv, .refl _ _ _, hs⟩
    | lost =>
        cases hrun
        exact ⟨hsourced, hguarantee, hstored.toStoring⟩
  · intro answer
    cases answer with
    | ok value =>
        intro s _ h
        exact ⟨fun _ _ => h, fun _ heq => by cases heq⟩
    | error failure =>
        intro s _ h
        refine ⟨?_, fun _ _ => h⟩
        intro _ heq
        cases heq

theorem gives_aggregateForDate :
    Gives request i (fun _ => True) (aggregateForDate date) fun outcome s =>
      outcome.metricDate = date ∧ Succeeded i date s := by
  rw [aggregateForDate_eq]
  apply gives_bind (gives_countRawRows hrequest 0)
  intro processedRows
  refine gives_bind (gives_now (stable_of_relied hrequest fun s s' h hs =>
    hs.of_kept (h.kept date) h.calls)) ?_
  intro now
  have hnodup : (metricTables ++ []).Nodup := by decide
  have hrewrite : Gives request i (Rewriting i date 0 [])
      (rewriteTables date (now / 1000000) metricTables)
      fun _ s => ∃ logs found, Storing i date (now / 1000000) logs found s := by
    refine (gives_rewriteTables hrequest hnodup).mono ?_ ?_
    · intro s _ hs
      exact ⟨hs.latest, hs.call, fun table htable => absurd htable List.not_mem_nil⟩
    · intro result s _ hpost value heq
      exact exists_storing (hpost value heq)
  apply gives_bind hrewrite
  intro _
  apply Discipline.Triple.exists
  intro logs
  apply Discipline.Triple.exists
  intro found
  apply gives_bind (gives_buildMetricPayload hrequest)
  intro payload
  apply Discipline.Triple.pure
  rintro rfl
  apply gives_bind (gives_upsertMetrics hrequest)
  intro _
  apply gives_ret
  rintro s _ ⟨hstored, hcall⟩
  exact ⟨rfl, now / 1000000, logs, found, hcall, fun _ => hstored⟩

end Aggregate

/-! ## Every request -/

section Handler

variable {request : Request} {i : Nat}

theorem gives_targetOf (targetDate : Option Date) :
    Gives request i (fun _ => True) (targetOf targetDate) fun _ _ => True := by
  cases targetDate with
  | some date => exact gives_ret fun _ _ _ => trivial
  | none =>
      apply gives_bind (gives_now stable_true)
      intro now
      exact gives_ret fun _ _ _ => trivial

theorem gives_exportForDate (date : Date) :
    Gives request i (fun _ => True) (exportForDate date) fun _ _ => True := by
  have hattempt : Gives request i (fun _ => True) (do
      let rows ← command (.fetch date)
      command (.putObject date (exportFrame date rows))
      return date) fun _ _ => True := by
    apply gives_bind (gives_read (fun s => fetchMetricsForExport s.dailyMetrics date)
      stable_true fun s fate => rfl)
    intro rows
    have hput : Gives request i (fun _ => True)
        (command (.putObject date (exportFrame date rows))) fun _ _ => True := by
      apply gives_settle (fun _ => ())
        (fun s => s.exported date (exportFrame date rows)) stable_true fun s fate => rfl
      intro s hinv _
      refine ⟨hinv.exported _, ⟨fun _ _ => rfl, ?_⟩, trivial⟩
      intro other
      exact Or.inr ⟨fun _ => rfl, fun _ _ => rfl, rfl⟩
    exact gives_bind hput fun _ => gives_ret fun _ _ _ => trivial
  apply Discipline.Triple.retry retries
  exact hattempt.mono (fun _ _ h => h) fun _ _ _ h => ⟨h, fun _ _ => trivial⟩

theorem handler_aggregates (hrequest : request.isAggregation = true) {target : Job Date}
    (htarget : Gives request i (fun _ => True) target fun _ _ => True) :
    aggregation.Triple service request i (fun _ => True)
      (do return Response.aggregated (← aggregateForDate (← target)))
      (aggregation.answer request i) := by
  have hgives : Gives request i (fun _ => True)
      (do return Response.aggregated (← aggregateForDate (← target))) fun response s =>
        ∀ outcome, response = .aggregated outcome → Succeeded i outcome.metricDate s := by
    apply gives_bind htarget
    intro date
    apply gives_bind (gives_aggregateForDate hrequest)
    intro outcome
    apply gives_ret
    rintro s _ ⟨rfl, hsucceeded⟩ outcome' heq
    cases heq
    exact hsucceeded
  refine hgives.mono (fun _ _ h => h) ?_
  intro result s _ hpost outcome heq
  exact ⟨hrequest, hpost _ heq outcome rfl⟩

theorem handler_exports {target : Job Date}
    (htarget : Gives request i (fun _ => True) target fun _ _ => True) :
    aggregation.Triple service request i (fun _ => True)
      (do return Response.exported (← exportForDate (← target)))
      (aggregation.answer request i) := by
  have hgives : Gives request i (fun _ => True)
      (do return Response.exported (← exportForDate (← target))) fun response _ =>
        ∀ outcome, response ≠ .aggregated outcome := by
    apply gives_bind htarget
    intro date
    apply gives_bind (gives_exportForDate date)
    intro _
    apply gives_ret
    intro s _ _ outcome heq
    cases heq
  refine hgives.mono (fun _ _ h => h) ?_
  intro result s _ hpost outcome heq
  exact absurd rfl (hpost _ heq outcome)

end Handler

theorem sound : aggregation.Sound service where
  rely_refl _ _ s _ := ⟨fun date => .refl date s, rfl⟩
  rely_trans _ _ _ _ _ h h' hrequest :=
    ⟨fun date => ((h hrequest).kept date).trans ((h' hrequest).kept date),
      (h' hrequest).calls.trans (h hrequest).calls⟩
  guarantee_rely request request' i j s s' hij hcompatible _ h hrequest' := by
    refine ⟨?_, h.calls j hij.symm⟩
    intro date
    rcases h.dates date with ⟨hrequest, _⟩ | hkept
    · exact absurd ⟨hrequest, hrequest'⟩ hcompatible
    · exact hkept
  guarantee_unused _ _ _ _ _ _ _ _ := trivial
  guarantee_answer request request' i j result s s' hij _ h hanswer := by
    intro outcome hresult
    obtain ⟨hrequest', hsucceeded⟩ := hanswer outcome hresult
    refine ⟨hrequest', ?_⟩
    rcases h.dates outcome.metricDate with ⟨_, hlatest⟩ | hkept
    · -- a later aggregation of the date has begun
      obtain ⟨computedAt, logs, found, hcall, _⟩ := hsucceeded
      refine ⟨computedAt, logs, found, (h.calls j hij.symm).trans hcall, ?_⟩
      intro hlatest'
      rw [hlatest] at hlatest'
      exact absurd (Option.some.inj hlatest') hij
    · exact hsucceeded.of_kept hkept (h.calls j hij.symm)
  close_inv _ _ h := h
  close_guarantee request i s _ := .refl request i s
  close_answer _ _ _ _ _ h := h
  answer_stable request i result s s' _ hrely hanswer := by
    intro outcome hresult
    obtain ⟨hrequest, hsucceeded⟩ := hanswer outcome hresult
    have hrelied := hrely hrequest
    exact ⟨hrequest, hsucceeded.of_kept (hrelied.kept _) hrelied.calls⟩
  outside_inv change s s' hchange h := by
    obtain rfl := Option.some.inj hchange
    exact h.after change
  outside_rely change s s' hchange _ _ _ _ := by
    obtain rfl := Option.some.inj hchange
    cases change with
    | arrive event => exact ⟨fun _ => ⟨fun _ => rfl, fun _ _ => rfl, rfl⟩, rfl⟩
    | tick microseconds => exact ⟨fun _ => ⟨fun _ => rfl, fun _ _ => rfl, rfl⟩, rfl⟩
  outside_unused _ _ _ _ _ _ := trivial
  handler_safe request i := by
    cases request with
    | aggregate targetDate => exact handler_aggregates rfl (gives_targetOf targetDate)
    | aggregateLatest => exact handler_aggregates rfl (gives_targetOf none)
    | «export» targetDate => exact handler_exports (gives_targetOf targetDate)
    | exportLatest => exact handler_exports (gives_targetOf none)

/-! ## Runs -/

/-- An aggregation is running. -/
def aggregating (pool : AnalyticsPool) : Bool :=
  pool.threads.any fun thread =>
    match thread.status with
    | .running _ => thread.request.isAggregation
    | _ => false

/-- Aggregations do not overlap. -/
def oneAtATime (pool : AnalyticsPool) : AnalyticsEvent → Bool
  | .start request => !(request.isAggregation && aggregating pool)
  | _ => true

theorem allowed_of_oneAtATime {pool : AnalyticsPool} {event : AnalyticsEvent}
    (h : oneAtATime pool event = true) : aggregation.Allowed pool event := by
  cases event with
  | start request =>
      intro j request' program hruns
      have hcompatible : ¬ (request.isAggregation = true ∧ request'.isAggregation = true) := by
        rintro ⟨hrequest, hrequest'⟩
        have hrunning : aggregating pool = true :=
          List.any_eq_true.mpr ⟨_, List.mem_of_getElem? hruns, hrequest'⟩
        simp only [oneAtATime, hrequest, hrunning, Bool.and_self, Bool.not_true] at h
        cases h
      exact ⟨hcompatible, fun hboth => hcompatible hboth.symm⟩
  | step i choice => exact fun _ _ _ _ => trivial
  | stop i => trivial
  | outside change => trivial

section Runs

variable {clock : Nat} {log : EventLog} {tables : (table : MetricTable) → List (Row table)}
  {events : List AnalyticsEvent} {pool : AnalyticsPool}

theorem holds_run (h : service.run (Pool.initial (.initial clock log tables)) events = some pool)
    (hone : service.passes oneAtATime (Pool.initial (.initial clock log tables)) events = true) :
    aggregation.Holds service pool :=
  Discipline.holds_steps sound
    (Service.Steps.of_run_checked oneAtATime (fun _ _ => allowed_of_oneAtATime) events hone h)
    (Discipline.holds_initial (sourced_initial clock log tables) fun _ => trivial)

/-- After a successful aggregation the rows of its date in `daily_metrics` are the
    payload exactly when every movie that had a row has kept its place among the
    top ten. -/
theorem metrics_exact
    (h : service.run (Pool.initial (.initial clock log tables)) events = some pool)
    (hone : service.passes oneAtATime (Pool.initial (.initial clock log tables)) events = true)
    {i : Nat} {request : Request} {outcome : AggregationResult}
    (hanswered : pool.Answered i request (.ok (.aggregated outcome)))
    (hlatest : pool.shared.latest outcome.metricDate = some i) :
    ∃ call ranked computedAt, pool.shared.calls i = some call ∧
      pool.shared.source .dailyTopMovies outcome.metricDate = .selected ranked computedAt ∧
      (MetricsFresh pool.shared.dailyMetrics outcome.metricDate call.payload ↔
        ∀ movie, movieKey outcome.metricDate movie ∈ call.found →
          ahead ranked outcome.metricDate movie < 10) := by
  obtain ⟨_, computedAt, logs, found, hcall, hsucceeded⟩ :=
    (holds_run h hone).answered i request _ hanswered outcome rfl
  have hstored := hsucceeded hlatest
  refine ⟨_, logs .dailyTopMovies, computedAt, hcall, hstored.sources .dailyTopMovies, ?_⟩
  exact (metricsFresh_iff hstored.stored hstored.others).trans (payload_covers hstored.covered)

end Runs

/-- Someone looks at a movie on day 5. -/
def visit (movie : String) (eventType : EventType) : MovieEvent :=
  ⟨0, "u", movie, eventType, 86400000 * 5, .tv, "s", some 0, none, 1⟩

/-- Aggregation `i` of day 5, without a failure. -/
def aggregateDay (i : Nat) : List AnalyticsEvent :=
  .start (.aggregate (some 5)) :: List.replicate 24 (.step i .done)

/-- Two aggregations of day 5, between which views of `movies` arrive. -/
def twice (movies : List String) : List AnalyticsEvent :=
  aggregateDay 0 ++ movies.map (fun movie => .outside (.arrive (visit movie .viewStarted))) ++
    aggregateDay 1

/-- "z" was liked on day 5. -/
def likedLog : EventLog := [movieEventsMv (visit "z" .liked)]

def Source.log : Source → EventLog
  | .unknown | .deleted => []
  | .selected log _ => log

set_option maxRecDepth 10000 in
/-- "z" keeps its place when a second movie is viewed. -/
theorem metrics_exact_sample : ∃ pool call,
    service.run (Pool.initial (.initial 0 likedLog fun _ => [])) (twice ["a"]) = some pool ∧
    pool.shared.calls 1 = some call ∧
    MetricsFresh pool.shared.dailyMetrics 5 call.payload := by
  obtain ⟨pool, hrun, hanswer, hlatest, hkept⟩ := Service.exists_run (fun pool : AnalyticsPool =>
      pool.answer? 1 = some (.aggregate (some 5), .ok (.aggregated ⟨5, 2, 10⟩)) ∧
      pool.shared.latest 5 = some 1 ∧
      ((pool.shared.calls 1).all fun call => call.found.keys.all fun key =>
        decide (ahead (pool.shared.source .dailyTopMovies 5).log 5 key.dimensionValue < 10)) = true)
    (show ((service.run (Pool.initial (.initial 0 likedLog fun _ => [])) (twice ["a"])).any _) =
      true by decide +kernel)
  obtain ⟨call, ranked, computedAt, hcall, hsource, hfresh⟩ :=
    metrics_exact hrun (by decide +kernel) (Service.answered_of_answer? hanswer) hlatest
  refine ⟨pool, call, hrun, hcall, hfresh.mpr ?_⟩
  intro movie hmovie
  rw [hcall, hsource, Option.all_some, List.all_eq_true] at hkept
  exact of_decide_eq_true (hkept _ hmovie)

set_option maxRecDepth 10000 in
/-- "z" has dropped out of the top ten and keeps its row. -/
theorem metrics_stale : ∃ pool call outcome,
    service.run (Pool.initial (.initial 0 likedLog fun _ => []))
      (twice ["a", "b", "c", "d", "e", "f", "g", "h", "i", "j"]) = some pool ∧
    service.passes oneAtATime (Pool.initial (.initial 0 likedLog fun _ => []))
      (twice ["a", "b", "c", "d", "e", "f", "g", "h", "i", "j"]) = true ∧
    pool.Answered 1 (.aggregate (some 5)) (.ok (.aggregated outcome)) ∧
    pool.shared.latest outcome.metricDate = some 1 ∧ pool.shared.calls 1 = some call ∧
    ¬ MetricsFresh pool.shared.dailyMetrics outcome.metricDate call.payload := by
  obtain ⟨pool, hrun, hanswer, hlatest, hcalled, hmany⟩ := Service.exists_run
    (fun pool : AnalyticsPool =>
      pool.answer? 1 = some (.aggregate (some 5), .ok (.aggregated ⟨5, 11, 18⟩)) ∧
      pool.shared.latest 5 = some 1 ∧ (pool.shared.calls 1).isSome = true ∧
      ¬ ((storedMetrics pool.shared.dailyMetrics 5).filter fun metric =>
        decide (metric.metricName = .topMovieViews)).length ≤ 10)
    (show ((service.run (Pool.initial (.initial 0 likedLog fun _ => []))
      (twice ["a", "b", "c", "d", "e", "f", "g", "h", "i", "j"])).any _) = true by decide +kernel)
  obtain ⟨call, hcall⟩ := Option.isSome_iff_exists.mp hcalled
  refine ⟨pool, call, ⟨5, 11, 18⟩, hrun, by decide +kernel, Service.answered_of_answer? hanswer,
    hlatest, hcall, ?_⟩
  intro hfresh
  exact hmany hfresh.topMovies

end SoaHomework.MovieAnalytics

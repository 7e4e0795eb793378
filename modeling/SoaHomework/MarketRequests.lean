import SoaHomework.MarketStatements
import SoaHomework.RelyGuarantee

/-!
# The requests of the marketplace

Each handler is verified on its own against what the row locks and the other
sessions leave alone (`Undisturbed`). The result is one statement about all of
them: a step either leaves the committed rows, or it is a commit whose `Effect`
follows from what the session had loaded.
-/

namespace SoaHomework.Marketplace

open StatementProgram

/-- What the others leave alone for session `i`. Rows are never deleted. -/
structure Undisturbed (i : Nat) (s s' : State) : Prop where
  keeps : RowStore.Keeps codeIndex i s.db s'.db
  session : s'.sessions i = s.sessions i
  grows : ∀ k, k ∈ s.db.rows → k ∈ s'.db.rows

/-- What a step of session `i` does to the committed rows and to what it has
    loaded. -/
inductive Change (request : Request) (i : Nat) (s s' : State) : Prop where
  | quiet (hrows : s'.db.rows = s.db.rows)
      (hsession : SessionStep request s.db.rows (s.sessions i) (s'.sessions i))
  | effect (heffect : Effect (s.sessions i) (s.db.pending i) s.db.rows s'.db.rows request)
      (hempty : s'.sessions i = .empty)

/-- At its commit a session has come to an effect of its request. -/
def Effective (request : Request) (i : Nat) (statement : Statement) (s : State) : Prop :=
  statement = .commit →
    Effect (s.sessions i) (s.db.pending i) s.db.rows (s.db.commit i).rows request

def discipline : Discipline Statement HandlerError Response Request State where
  inv s := s.db.Consistent codeIndex ∧ WellFormed s.db.rows
  rely _ i s s' := Undisturbed i s s'
  guarantee request i s s' := (∀ j, i ≠ j → Undisturbed j s s') ∧ Change request i s s'
  unused i s := s.db.Idle i ∧ s.sessions i = .empty
  compatible _ _ := True
  permitted _ _ _ _ := True
  known := Effective
  answer _ _ _ _ := True

variable {settings : Settings} {request : Request} {i : Nat} {α β : Type}

/-- The rely of a session keeps where it stands. -/
theorem stable_at (session : Session) (written : Rows) (known : (k : Key) → Option (Row k))
    (present : List Key) :
    discipline.Stable request i (At i session written known present) := by
  rintro s s' _ ⟨hkeeps, hsession, hgrows⟩ ⟨hholds, horder, hitems, hpromo, hpresent⟩
  exact ⟨hholds.keeps hkeeps, by rw [hsession, horder], by rw [hsession, hitems],
    by rw [hsession, hpromo], fun k hk => hgrows k (hpresent k hk)⟩

theorem undisturbed_refl (j : Nat) (s : State) : Undisturbed j s s :=
  ⟨RowStore.Keeps.refl j s.db, rfl, fun _ h => h⟩

theorem guarantee_refl (s : State) : discipline.guarantee request i s s :=
  ⟨fun j _ => undisturbed_refl j s, .quiet rfl (SessionStep.refl _ _)⟩

/-! ## The rules of one request -/

/-- What is known when a program has not raised an error. -/
def Post (post : α → State → Prop) : Except HandlerError α → State → Prop
  | .ok value, s => post value s
  | .error _, _ => True

/-- A handler's program establishes `post` unless it raises an error. -/
abbrev Does (settings : Settings) (request : Request) (i : Nat) (pre : State → Prop)
    (program : Handler α) (post : α → State → Prop) : Prop :=
  discipline.Triple (service settings) request i pre program (Post post)

theorem does_ret {pre : State → Prop} {value : α} {post : α → State → Prop}
    (h : ∀ s, pre s → post value s) : Does settings request i pre (.ret value) post :=
  Discipline.Triple.ret fun s _ hpre => h s hpre

theorem does_fail {pre : State → Prop} {error : HandlerError} {post : α → State → Prop} :
    Does settings request i pre (.fail error) post :=
  Discipline.Triple.fail fun _ _ _ => trivial

theorem does_bind {pre : State → Prop} {program : Handler α} {next : α → Handler β}
    (middle : α → State → Prop) {post : β → State → Prop}
    (h : Does settings request i pre program middle)
    (hnext : ∀ value, Does settings request i (middle value) (next value) post) :
    Does settings request i pre (program >>= next) post :=
  Discipline.Triple.bind (Post middle) h hnext fun _ _ _ _ => trivial

theorem does_raiseIf {pre : State → Prop} {failed : Bool} {error : HandlerError}
    {next : Unit → Handler α} {post : α → State → Prop}
    (h : failed = false → Does settings request i pre (next ()) post) :
    Does settings request i pre (Program.raiseIf failed error >>= next) post :=
  Discipline.Triple.raiseIf (fun _ _ _ _ => trivial) h

theorem does_require {pre : State → Prop} {error : ApiError} {row : Option α}
    {next : α → Handler β} {post : β → State → Prop}
    (h : ∀ value, row = some value → Does settings request i pre (next value) post) :
    Does settings request i pre (require error row >>= next) post := by
  cases row with
  | some value => exact h value rfl
  | none => exact does_fail

theorem does_returnApi {pre : State → Prop} {result : Except ApiError α}
    {next : α → Handler β} {post : β → State → Prop}
    (h : ∀ value, result = .ok value → Does settings request i pre (next value) post) :
    Does settings request i pre (returnApi result >>= next) post := by
  cases result with
  | ok value => exact h value rfl
  | error error => exact does_fail

/-- A statement other than the commit. -/
theorem does_query {statement : Statement} {session : Session} {written : Rows}
    {known : (k : Key) → Option (Row k)} {present : List Key}
    {middle : Result statement → State → Prop}
    (hmoves : Moves request i (At i session written known present) statement middle)
    (hcommit : statement ≠ .commit) :
    Does settings request i (At i session written known present) (query statement) middle := by
  refine Discipline.Triple.step (OnResult middle) (stable_at session written known present) ?_ ?_
  · refine fun s hinv hpre => ⟨fun heq => absurd heq hcommit, fun _ choice answer s' hrun => ?_⟩
    cases choice with
    | failure =>
        obtain ⟨rfl, rfl⟩ := execute_failure (i := i) hrun
        exact ⟨hinv, guarantee_refl s', trivial⟩
    | proceed generated =>
        have hproceed : proceed i generated s statement = some (answer, s') := hrun
        obtain ⟨hframe, hrows⟩ := proceed_frame hinv.1 hcommit hproceed
        obtain ⟨hmiddle, hsession⟩ := hmoves s generated answer s' hinv.2 hpre hproceed
        refine ⟨⟨hframe.consistent, by rw [hrows]; exact hinv.2⟩, ⟨fun j hij => ?_, ?_⟩, hmiddle⟩
        · exact ⟨hframe.keeps j hij, hframe.sessions j hij, hframe.grows⟩
        · exact .quiet hrows hsession
  · intro answer
    cases answer with
    | ok result => exact does_ret fun _ h => h
    | error error => exact does_fail

/-- The statements that only read. -/
theorem does_read {statement : Statement} {session : Session} {written : Rows}
    {known : (k : Key) → Option (Row k)} {present : List Key} (hcommit : statement ≠ .commit)
    (h : ∀ s generated answer s', proceed i generated s statement = some (answer, s') → s' = s) :
    Does settings request i (At i session written known present) (query statement)
      fun _ => At i session written known present :=
  does_query (moves_read h) hcommit

/-- The commit, from where the effect of the request follows. -/
theorem does_commit {session : Session} {written : Rows} {known : (k : Key) → Option (Row k)}
    {present : List Key}
    (heffect : ∀ s, WellFormed s.db.rows → At i session written known present s →
      Effect (s.sessions i) written s.db.rows (s.db.commit i).rows request) :
    Does settings request i (At i session written known present) (query .commit)
      fun _ => At i .empty ∅ (fun _ => none) [] := by
  refine Discipline.Triple.step (OnResult fun _ => At i .empty ∅ (fun _ => none) [])
    (stable_at session written known present) ?_ ?_
  · intro s hinv hpre
    have heffect' := heffect s hinv.2 hpre
    rw [← hpre.holds.pending] at heffect'
    refine ⟨fun _ => heffect', fun _ choice answer s' hrun => ?_⟩
    cases choice with
    | failure =>
        obtain ⟨rfl, rfl⟩ := execute_failure (i := i) hrun
        exact ⟨hinv, guarantee_refl s', trivial⟩
    | proceed generated =>
        have hproceed : proceed i generated s .commit = some (answer, s') := hrun
        obtain ⟨rfl, rfl⟩ := answerLoaded_eq hproceed
        refine ⟨⟨RowStore.commit_consistent i hinv.1, heffect'.wellFormed hinv.2⟩,
          ⟨fun j hij => ?_, ?_⟩, ?_⟩
        · refine ⟨RowStore.commit_keeps hij hinv.1, withSession_other hij _, fun k hk => ?_⟩
          exact AList.mem_union.mpr (Or.inr hk)
        · exact .effect heffect' (withSession_self _)
        · refine ⟨(RowStore.finish_idle _ _ _).holds, ?_, ?_, ?_, fun k hk => by cases hk⟩
          · rw [withSession_self]
          · rw [withSession_self]
          · rw [withSession_self]
  · intro answer
    cases answer with
    | ok result => exact does_ret fun _ h => h
    | error error => exact does_fail

/-! ## The common parts -/

section Parts

variable {session : Session} {written : Rows} {known : (k : Key) → Option (Row k)}
  {present : List Key}

theorem does_requireRoles (roles : List UserRole) (subject : Uuid) :
    Does settings request i (At i session written known present) (requireRoles roles subject)
      fun _ => At i session written known present := by
  refine does_bind _ (does_query (moves_selectUser subject) (by simp)) fun row => ?_
  refine does_require fun user _ => ?_
  split
  · exact does_ret fun _ h => h
  · exact does_fail

theorem does_now :
    Does settings request i (At i session written known present) (query .now)
      fun _ => At i session written known present :=
  does_read (by simp) fun _ _ _ _ h => (answerRead_eq h).2

theorem does_checkRateLimit (subject : Uuid) (operationType : OperationType) :
    Does settings request i (At i session written known present)
      (checkRateLimit settings subject operationType)
      fun _ => At i session written known present := by
  refine does_bind _ (does_read (by simp) fun _ _ _ _ h => (answerRead_eq h).2) fun last => ?_
  cases last with
  | none => exact does_ret fun _ h => h
  | some createdAt =>
      refine does_bind _ does_now fun now => ?_
      unfold Program.raiseIf
      split
      · exact does_fail
      · exact does_ret fun _ h => h

/-- The response is read after the commit. -/
theorem does_orderResponse (id : Uuid) :
    Does settings request i (At i .empty ∅ (fun _ => none) []) (orderResponse id)
      fun _ _ => True := by
  refine does_bind _ (does_read (by simp) fun _ _ _ _ h => (answerRead_eq h).2) fun order => ?_
  cases order with
  | none => exact does_fail
  | some order =>
      refine does_bind _ (does_query (moves_selectItems id) (by simp)) fun items => ?_
      exact does_ret fun _ _ => trivial

theorem does_flushStocks {loaded : ProductMap} {changes : List (Uuid × Int)}
    (hnodup : (changes.map Prod.fst).Nodup)
    (hfresh : ∀ change ∈ changes, .product change.1 ∉ written)
    (hknown : ∀ id, known (.product id) = loaded.lookup id)
    (hfound : ∀ change ∈ changes, ∃ p, loaded.lookup change.1 = some p) :
    Does settings request i (At i session written known present) (flushStocks changes)
      fun _ => At i session (writtenStocks loaded written changes) known present := by
  induction changes generalizing written with
  | nil => exact does_ret fun _ h => h
  | cons change changes ih =>
      rw [List.map_cons, List.nodup_cons] at hnodup
      obtain ⟨p, hp⟩ := hfound change List.mem_cons_self
      have hproduct : known (.product change.1) = some p := (hknown change.1).trans hp
      refine does_bind _ (does_query (moves_updateStock
        (hfresh change List.mem_cons_self) hproduct) (by simp)) fun _ => ?_
      have hfresh' : ∀ next ∈ changes, (.product next.1 : Key) ∉
          written.insert (.product change.1) { p with stock := change.2 } := by
        intro next hnext hmem
        rcases (AList.mem_insert _).mp hmem with heq | hold
        · simp only [Key.product.injEq] at heq
          exact hnodup.1 (List.mem_map.mpr ⟨next, hnext, heq⟩)
        · exact hfresh next (List.mem_cons_of_mem change hnext) hold
      have hrest := ih hnodup.2 hfresh' fun next hnext =>
        hfound next (List.mem_cons_of_mem change hnext)
      simpa only [writtenStocks, List.foldl_cons, hp] using hrest

end Parts

end SoaHomework.Marketplace

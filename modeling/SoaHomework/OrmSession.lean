import Mathlib.Data.List.AList
import SoaHomework.FallibleState

/-!
# Sessions of an object-relational mapper

A session works on the committed rows through a transaction. What is assigned to
an object stays in memory until a flush writes it; queries do not flush
(`autoflush=False`), so they see what has been flushed only. A flush checks the
rows against the schema. A transaction is begun by the first statement, may
contain savepoints, and ends in a commit, which flushes first, or in a rollback.

The session remembers what has been assigned to its objects and the committed
rows that each of its commits has left. `Tracks` says that everything assigned is
still on the way to the database, `Committed` that it has arrived as a whole.
-/

set_option linter.unusedSectionVars false

namespace OrmSession

open FallibleState

/-- The rows that an open transaction sees, and those at its savepoints, the
    innermost first. -/
structure Transaction {κ : Type} (β : κ → Type) where
  rows : AList β
  savepoints : List (AList β)

structure Session (κ : Type) (β : κ → Type) where
  database : AList β
  transaction : Option (Transaction β)
  /-- The assigned objects that have not been flushed. -/
  pending : AList β
  /-- Those among them that are to be inserted. -/
  added : List κ
  /-- The history: the last value assigned to each object. -/
  assigned : AList β
  /-- The history: the committed rows after each commit. -/
  published : List (AList β)

structure Schema (κ : Type) (β : κ → Type) (ε : Type) where
  /-- The row as its columns hold it. -/
  stored : (k : κ) → β k → β k
  fits : (k : κ) → β k → Bool
  outOfRange : ε
  duplicateKey : ε
  alreadyBegun : ε

/-- The row is as its columns hold it. -/
def Schema.Holds {κ ε : Type} {β : κ → Type} (schema : Schema κ β ε) (k : κ) (row : β k) : Prop :=
  schema.stored k row = row ∧ schema.fits k row = true

variable {κ ε α : Type} {β : κ → Type} [DecidableEq κ]

abbrev Orm (κ : Type) (β : κ → Type) (ε : Type) := Fallible (Session κ β) ε

namespace Session

/-- A session over the rows `database`, with a transaction that has changed
    nothing or with none. -/
def opened (database : AList β) (active : Bool) : Session κ β where
  database := database
  transaction := if active then some ⟨database, []⟩ else none
  pending := ∅
  added := []
  assigned := ∅
  published := []

/-- The transaction in which the next statement runs. -/
def current (s : Session κ β) : Transaction β := s.transaction.getD ⟨s.database, []⟩

def begun (s : Session κ β) : Session κ β := { s with transaction := some s.current }

/-- The objects as they are in memory: assigned values over loaded rows. -/
def objects (s : Session κ β) : AList β := s.pending ∪ s.current.rows

def assign (s : Session κ β) (k : κ) (row : β k) : Session κ β :=
  { s with pending := s.pending.insert k row, assigned := s.assigned.insert k row }

/-- Forget the transaction and everything that has not been flushed. -/
def rolledBack (s : Session κ β) : Session κ β :=
  { s with transaction := none, pending := ∅, added := [] }

def committed (s : Session κ β) : Session κ β :=
  { s with
    database := s.current.rows
    transaction := none
    published := s.published ++ [s.current.rows] }

def withSavepoint (s : Session κ β) : Session κ β :=
  { s with transaction := some ⟨s.current.rows, s.current.rows :: s.current.savepoints⟩ }

def released (s : Session κ β) : Session κ β :=
  { s with transaction := some ⟨s.current.rows, s.current.savepoints.tail⟩ }

def rolledBackToSavepoint (s : Session κ β) : Session κ β :=
  { s with
    transaction := some ⟨s.current.savepoints.headD s.current.rows, s.current.savepoints.tail⟩
    pending := ∅
    added := [] }

end Session

/-- The rows after `pending` has been written over them. -/
def Schema.write (schema : Schema κ β ε) (pending rows : AList β) : AList β :=
  pending.entries.foldr (fun entry rows => rows.insert entry.1 (schema.stored entry.1 entry.2))
    rows

def Session.flushed (schema : Schema κ β ε) (s : Session κ β) : Session κ β :=
  { s with
    transaction := some ⟨schema.write s.pending s.current.rows, s.current.savepoints⟩
    pending := ∅
    added := [] }

/-! ## What a program does with its session -/

/-- A query, which sees what has been flushed. -/
def select (f : AList β → α) : Orm κ β ε α := do
  change Session.begun
  observe fun s => f s.current.rows

/-- Attributes of loaded objects. -/
def inspect (f : AList β → α) : Orm κ β ε α := observe fun s => f s.objects

def assign (k : κ) (row : β k) : Orm κ β ε Unit := change fun s => s.assign k row

/-- `add` of a new object. -/
def add (k : κ) (row : β k) : Orm κ β ε Unit :=
  change fun s => { s.assign k row with added := k :: s.added }

def inTransaction : Orm κ β ε Bool := observe fun s => s.transaction.isSome

def flush (schema : Schema κ β ε) : Orm κ β ε Unit := do
  let duplicate ← observe fun s => s.added.any fun k => decide (k ∈ s.current.rows)
  raiseIf duplicate schema.duplicateKey
  let fits ← observe fun s => s.pending.entries.all fun entry => schema.fits entry.1 entry.2
  raiseIf (!fits) schema.outOfRange
  change (Session.flushed schema)

def commit (schema : Schema κ β ε) : Orm κ β ε Unit := do
  flush schema
  change Session.committed

def rollback : Orm κ β ε Unit := change Session.rolledBack

/-- What a `with` statement does with a transaction. -/
structure Context (κ : Type) (β : κ → Type) (ε : Type) where
  enter : Orm κ β ε Unit
  leave : Orm κ β ε Unit
  undo : Orm κ β ε Unit

/-- `begin_nested()`: a savepoint, released at the end and rolled back to by an
    exception. -/
def beginNested (schema : Schema κ β ε) : Context κ β ε where
  enter := do
    flush schema
    change Session.withSavepoint
  leave := do
    flush schema
    change Session.released
  undo := change Session.rolledBackToSavepoint

/-- `begin()`: a transaction, committed at the end and rolled back by an
    exception. -/
def begin (schema : Schema κ β ε) : Context κ β ε where
  enter := do
    raiseIf (← inTransaction) schema.alreadyBegun
    change Session.begun
  leave := commit schema
  undo := rollback

def within (context : Context κ β ε) (body : Orm κ β ε α) : Orm κ β ε α := do
  context.enter
  tryCatch
    (do
      let result ← body
      context.leave
      return result)
    fun error => do
      context.undo
      throw error

/-- A program with a session that is closed in the end, whatever happens. -/
def serve (program : Orm κ β ε α) (s : Session κ β) : Except ε α × Session κ β :=
  ((run program s).1, (run program s).2.rolledBack)

/-! ## Running a program -/

section Runs

variable {schema : Schema κ β ε} {s s₁ s₂ s₃ s₄ : Session κ β}

@[simp] theorem run_select (f : AList β → α) (s : Session κ β) :
    run (select f : Orm κ β ε α) s = (.ok (f s.current.rows), s.begun) := rfl

@[simp] theorem run_inspect (f : AList β → α) (s : Session κ β) :
    run (inspect f : Orm κ β ε α) s = (.ok (f s.objects), s) := rfl

@[simp] theorem run_assign (k : κ) (row : β k) (s : Session κ β) :
    run (assign k row : Orm κ β ε Unit) s = (.ok (), s.assign k row) := rfl

theorem Session.begun_of_active (h : s.transaction.isSome = true) : s.begun = s := by
  obtain ⟨transaction, htransaction⟩ := Option.isSome_iff_exists.mp h
  obtain ⟨database, _, pending, added, assigned, published⟩ := s
  obtain rfl := htransaction
  rfl

theorem Session.objects_assign (s : Session κ β) (k : κ) (row : β k) :
    (s.assign k row).objects = s.objects.insert k row := AList.insert_union.symm

theorem Session.objects_add (s : Session κ β) (k : κ) (row : β k) (added : List κ) :
    Session.objects { s.assign k row with added := added } = s.objects.insert k row :=
  s.objects_assign k row

/-- A flush of new keys and of rows that fit. -/
theorem run_flush (hadded : ∀ k ∈ s.added, k ∉ s.current.rows)
    (hfits : ∀ k row, s.pending.lookup k = some row → schema.fits k row = true) :
    run (flush schema) s = (.ok (), s.flushed schema) := by
  have hduplicate : (s.added.any fun k => decide (k ∈ s.current.rows)) = false := by
    simpa using hadded
  have hall : (s.pending.entries.all fun entry => schema.fits entry.1 entry.2) = true :=
    List.all_eq_true.mpr fun entry hentry => hfits _ _ (AList.mem_lookup_iff.mpr hentry)
  simp only [flush, run_bind, run_observe, run_raiseIf, hduplicate, hall, Bool.not_true,
    Bool.false_eq_true, if_false, run_change]

/-- A flush of new keys and of rows one of which does not fit. -/
theorem run_flush_refused (hadded : ∀ k ∈ s.added, k ∉ s.current.rows)
    (hfits : ¬ ∀ k row, s.pending.lookup k = some row → schema.fits k row = true) :
    run (flush schema) s = (.error schema.outOfRange, s) := by
  have hduplicate : (s.added.any fun k => decide (k ∈ s.current.rows)) = false := by
    simpa using hadded
  have hall : (s.pending.entries.all fun entry => schema.fits entry.1 entry.2) = false := by
    by_contra hne
    rw [Bool.not_eq_false, List.all_eq_true] at hne
    exact hfits fun k row hrow => hne ⟨k, row⟩ (AList.mem_lookup_iff.mp hrow)
  simp only [flush, run_bind, run_observe, run_raiseIf, hduplicate, hall, Bool.not_false,
    Bool.false_eq_true, if_false, if_true]

variable {context : Context κ β ε} {body : Orm κ β ε α} {value : α} {error : ε}

theorem run_within (henter : run context.enter s = (.ok (), s₁))
    (hbody : run body s₁ = (.ok value, s₂)) (hleave : run context.leave s₂ = (.ok (), s₃)) :
    run (within context body) s = (.ok value, s₃) := by
  simp only [within, run_bind, run_tryCatch, henter, hbody, hleave, run_pure]

theorem run_within_error (henter : run context.enter s = (.ok (), s₁))
    (hbody : run body s₁ = (.error error, s₂)) (hundo : run context.undo s₂ = (.ok (), s₃)) :
    run (within context body) s = (.error error, s₃) := by
  simp only [within, run_bind, run_tryCatch, henter, hbody, hundo, run_throw]

/-- The body returns, but its objects cannot be flushed. -/
theorem run_within_refused (henter : run context.enter s = (.ok (), s₁))
    (hbody : run body s₁ = (.ok value, s₂)) (hleave : run context.leave s₂ = (.error error, s₃))
    (hundo : run context.undo s₃ = (.ok (), s₄)) :
    run (within context body) s = (.error error, s₄) := by
  simp only [within, run_bind, run_tryCatch, henter, hbody, hleave, hundo, run_throw]

end Runs

/-! ## Everything assigned is on the way -/

/-- The session over the committed rows `before` has committed nothing. -/
structure Unpublished (before : AList β) (s : Session κ β) : Prop where
  database : s.database = before
  published : s.published = []

/-- Moreover a flush and a commit would leave what has been assigned. -/
structure Tracks (schema : Schema κ β ε) (before : AList β) (s : Session κ β) : Prop
    extends Unpublished before s where
  rows : ∀ k, ((s.pending.lookup k).map (schema.stored k)).or (s.current.rows.lookup k) =
    ((s.assigned.lookup k).map (schema.stored k)).or (before.lookup k)

/-- Everything assigned has been committed at once. -/
structure Committed (schema : Schema κ β ε) (before : AList β) (s : Session κ β) : Prop where
  once : s.published = [s.database]
  rows : ∀ k, s.database.lookup k =
    ((s.assigned.lookup k).map (schema.stored k)).or (before.lookup k)

theorem Schema.lookup_write (schema : Schema κ β ε) (pending rows : AList β) (k : κ) :
    (schema.write pending rows).lookup k =
      ((pending.lookup k).map (schema.stored k)).or (rows.lookup k) := by
  unfold Schema.write AList.lookup
  induction pending.entries with
  | nil => rfl
  | cons entry entries ih =>
      obtain ⟨k', row⟩ := entry
      rw [List.foldr_cons]
      by_cases hk : k = k'
      · subst hk
        rw [List.dlookup_cons_eq]
        exact AList.lookup_insert _
      · rw [List.dlookup_cons_ne _ _ hk, ← ih]
        exact AList.lookup_insert_ne hk

section Rules

variable {schema : Schema κ β ε} {before : AList β}

theorem tracks_opened (active : Bool) :
    Tracks schema before (Session.opened before active) := by
  constructor
  · exact ⟨rfl, rfl⟩
  · intro k
    cases active with
    | false => rfl
    | true => rfl

theorem Tracks.begun {s : Session κ β} (h : Tracks schema before s) :
    Tracks schema before s.begun := ⟨⟨h.database, h.published⟩, h.rows⟩

theorem Tracks.assign {s : Session κ β} (h : Tracks schema before s) (k : κ) (row : β k) :
    Tracks schema before (s.assign k row) := by
  constructor
  · exact ⟨h.database, h.published⟩
  · intro k'
    by_cases hk : k' = k
    · subst hk
      simp only [Session.assign, AList.lookup_insert, Option.map_some, Option.some_or]
    · simp only [Session.assign, AList.lookup_insert_ne hk]
      exact h.rows k'

theorem Tracks.flushed {s : Session κ β} (h : Tracks schema before s) :
    Tracks schema before (s.flushed schema) := by
  constructor
  · exact ⟨h.database, h.published⟩
  · intro k
    exact (schema.lookup_write s.pending s.current.rows k).trans (h.rows k)

/-- With nothing left to flush a commit publishes what has been assigned. -/
theorem Tracks.publish {s : Session κ β} (h : Tracks schema before s) (hpending : s.pending = ∅) :
    Committed schema before s.committed := by
  constructor
  · change s.published ++ [s.current.rows] = [s.current.rows]
    rw [h.published, List.nil_append]
  · intro k
    have hrows := h.rows k
    rw [hpending] at hrows
    exact hrows

theorem keeps_select (f : AList β → α) :
    Keeps (Tracks schema before) (select f : Orm κ β ε α) := by
  apply Keeps.bind
  · exact Keeps.change fun _ hs => hs.begun
  · intro _
    exact Keeps.observe _

theorem keeps_inspect (f : AList β → α) (inv : Session κ β → Prop) :
    Keeps inv (inspect f : Orm κ β ε α) := Keeps.observe _

theorem keeps_assign (k : κ) (row : β k) :
    Keeps (Tracks schema before) (assign k row : Orm κ β ε Unit) :=
  Keeps.change fun _ hs => hs.assign k row

theorem keeps_add (k : κ) (row : β k) :
    Keeps (Tracks schema before) (add k row : Orm κ β ε Unit) :=
  Keeps.change fun _ hs => ⟨⟨hs.database, hs.published⟩, (hs.assign k row).rows⟩

/-- A flush that fails has written nothing. -/
theorem flush_spec : Triple (Tracks schema before) (flush schema)
    (fun _ s => Tracks schema before s ∧ s.pending = ∅) fun _ => Unpublished before := by
  unfold flush
  apply Triple.bind (fun _ => Tracks schema before)
  · exact Triple.observe fun _ hs => hs
  · intro duplicate
    apply Triple.bind (fun _ => Tracks schema before)
    · apply Triple.raiseIf
      · exact fun _ _ hs => hs.toUnpublished
      · exact fun _ _ hs => hs
    · intro _
      apply Triple.bind (fun _ => Tracks schema before)
      · exact Triple.observe fun _ hs => hs
      · intro fits
        apply Triple.bind (fun _ => Tracks schema before)
        · apply Triple.raiseIf
          · exact fun _ _ hs => hs.toUnpublished
          · exact fun _ _ hs => hs
        · intro _
          exact Triple.change fun _ hs => ⟨hs.flushed, rfl⟩

theorem commit_spec : Triple (Tracks schema before) (commit schema)
    (fun _ => Committed schema before) fun _ => Unpublished before := by
  apply Triple.bind (fun _ s => Tracks schema before s ∧ s.pending = ∅)
  · exact flush_spec
  · intro _
    exact Triple.change fun _ hs => hs.1.publish hs.2

/-- A body that raises is undone, and its error passes on. -/
theorem within_spec {context : Context κ β ε} {body : Orm κ β ε α}
    {pre : Session κ β → Prop} {post : Session κ β → Prop}
    (henter : Triple pre context.enter (fun _ => Tracks schema before)
      fun _ => Unpublished before)
    (hbody : Keeps (Tracks schema before) body)
    (hleave : Triple (Tracks schema before) context.leave (fun _ => post)
      fun _ => Unpublished before)
    (hundo : Keeps (Unpublished before) context.undo) :
    Triple pre (within context body) (fun _ => post) fun _ => Unpublished before := by
  apply Triple.bind (fun _ => Tracks schema before)
  · exact henter
  · intro _
    apply Triple.tryCatch (fun _ => Unpublished before)
    · apply Triple.bind (fun _ => Tracks schema before)
      · apply hbody.mono
        · exact fun _ hs => hs
        · exact fun _ _ hs => hs
        · exact fun _ _ hs => hs.toUnpublished
      · intro result
        apply Triple.bind (fun _ => post)
        · exact hleave
        · intro _
          exact Triple.pure fun _ hs => hs
    · intro error
      apply Triple.bind (fun _ => Unpublished before)
      · exact hundo
      · intro _
        exact Triple.throw fun _ hs => hs

/-- At the end of the savepoint its transaction is still open. -/
theorem within_beginNested {body : Orm κ β ε α} (hbody : Keeps (Tracks schema before) body) :
    Triple (Tracks schema before) (within (beginNested schema) body)
      (fun _ s => Tracks schema before s ∧ s.transaction.isSome = true)
      fun _ => Unpublished before := by
  apply within_spec
  · apply Triple.bind (fun _ s => Tracks schema before s ∧ s.pending = ∅)
    · exact flush_spec
    · intro _
      exact Triple.change fun _ hs => ⟨⟨hs.1.database, hs.1.published⟩, hs.1.rows⟩
  · exact hbody
  · apply Triple.bind (fun _ s => Tracks schema before s ∧ s.pending = ∅)
    · exact flush_spec
    · intro _
      exact Triple.change fun _ hs => ⟨⟨⟨hs.1.database, hs.1.published⟩, hs.1.rows⟩, rfl⟩
  · exact Keeps.change fun _ hs => ⟨hs.database, hs.published⟩

theorem within_begin {body : Orm κ β ε α} (hbody : Keeps (Tracks schema before) body) :
    Triple (fun s => Tracks schema before s ∧ s.transaction.isSome = false)
      (within (begin schema) body) (fun _ => Committed schema before)
      fun _ => Unpublished before := by
  apply within_spec
  · apply Triple.bind (fun active s => Tracks schema before s ∧ active = false)
    · exact Triple.observe fun _ hs => hs
    · intro active
      apply Triple.bind (fun _ => Tracks schema before)
      · apply Triple.raiseIf
        · exact fun _ _ hs => hs.1.toUnpublished
        · exact fun _ _ hs => hs.1
      · intro _
        exact Triple.change fun _ hs => hs.begun
  · exact hbody
  · exact commit_spec
  · exact Keeps.change fun _ hs => ⟨hs.database, hs.published⟩

theorem Committed.select (f : AList β → α) (raised : ε → Session κ β → Prop) :
    Triple (Committed schema before) (OrmSession.select f) (fun _ => Committed schema before)
      raised := by
  apply Triple.bind (fun _ => Committed schema before)
  · exact Triple.change fun _ hs => ⟨hs.once, hs.rows⟩
  · intro _
    exact Triple.observe fun _ hs => hs

/-- Closing the session loses what has not been committed, and nothing else. -/
theorem serve_spec {program : Orm κ β ε α} {s : Session κ β} {pre : Session κ β → Prop}
    {raised : ε → Session κ β → Prop} (hs : pre s)
    (h : Triple pre program (fun _ => Committed schema before) raised)
    (hraised : ∀ error s, raised error s → raised error s.rolledBack) :
    match serve program s with
    | (.ok _, s') => Committed schema before s'
    | (.error error, s') => raised error s' := by
  have hrun := h s hs
  unfold serve
  cases hresult : run program s with
  | mk result s' =>
      rw [hresult] at hrun
      cases result with
      | ok value => exact ⟨hrun.once, hrun.rows⟩
      | error error => exact hraised error s' hrun

end Rules

end OrmSession

import SoaHomework.HandlerStatements
import SoaHomework.OrderLifecycle

/-!
# The log of the commits

Every handler commits once, and refuses a request with an API error before that.
So the commits of a run can be listed, each with what its session has loaded and
written by then (`commitLog`): no request is in the list twice, all that have been
answered with a response are in it and none that has been refused, and the committed
rows are the stored ones with the effects of the commits, one after the other
(`Applied`).
-/

namespace SoaHomework.Marketplace

open StatementProgram

variable {settings : Settings} {rows₀ rows : Rows} {pool final : MarketPool}
  {event : MarketEvent} {α : Type}

/-- A commit has succeeded. -/
def committed : (statement : Statement) → Answer statement → Bool
  | .commit, .ok _ => true
  | _, _ => false

/-- The result of a request that has committed `n` times. -/
def Commits.fits : Except HandlerError Response → Nat → Prop
  | .ok _, n => n = 1
  | .error (.api _), n => n = 0
  | .error (.db _), n => n ≤ 1

/-! ## The handlers -/

theorem committed_of_ne {statement : Statement} (h : statement ≠ .commit)
    (answer : Answer statement) : committed statement answer = false := by
  cases statement with
  | commit => exact absurd rfl h
  | _ => rfl

theorem fits_none (error : HandlerError) : Commits.fits (.error error) 0 := by
  cases error with
  | api error => rfl
  | db error => exact Nat.zero_le 1

/-- The rest of a handler counts its commits after `n`. -/
abbrev CountsFrom (n : Nat) (p : Handler Response) : Prop := p.Counts committed Commits.fits n

/-- What comes before the commit. -/
theorem counts_before {p : Handler α} {f : α → Handler Response}
    (hp : p.Uses fun statement => statement ≠ .commit) (hf : ∀ value, CountsFrom 0 (f value)) :
    CountsFrom 0 (p >>= f) :=
  Program.counts_after (hp.mono fun _ hne => committed_of_ne hne) fits_none hf

theorem counts_query {statement : Statement} {f : Result statement → Handler Response} {n : Nat}
    (hn : n ≤ 1) (hne : statement ≠ .commit) (hf : ∀ result, CountsFrom n (f result)) :
    CountsFrom n (query statement >>= f) := by
  intro answer
  rw [committed_of_ne hne answer]
  cases answer with
  | ok result => exact hf result
  | error error => exact hn

theorem counts_commit {f : Unit → Handler Response} (hf : CountsFrom 1 (f ())) :
    CountsFrom 0 (query .commit >>= f) := by
  intro answer
  cases answer with
  | ok result => exact hf
  | error error => exact Nat.zero_le 1

theorem ne_commit_of_looks {p : Handler α}
    (h : p.Uses fun statement => statement.looks = true) :
    p.Uses fun statement => statement ≠ .commit := by
  refine h.mono fun statement hlooks => ?_
  rintro rfl
  cases hlooks

theorem counts_orderResponse (id : Uuid) : CountsFrom 1 (orderResponse id) := by
  refine counts_query (Nat.le_refl 1) (by simp) fun found => ?_
  cases found with
  | none => exact Nat.le_refl 1
  | some order => exact counts_query (Nat.le_refl 1) (by simp) fun items => rfl

theorem counts_productResponse (id : Uuid) : CountsFrom 1 (productResponse id) := by
  refine counts_query (Nat.le_refl 1) (by simp) fun found => ?_
  cases found with
  | none => exact Nat.le_refl 1
  | some product => rfl

theorem counts_createOrder_finish (subject : Uuid) (placement : Placement) (order : Order) :
    CountsFrom 0 (createOrder.finish subject placement order) := by
  refine counts_query (Nat.zero_le 1) (by simp) fun id => ?_
  refine counts_query (Nat.zero_le 1) (by simp) fun _ => ?_
  refine counts_query (Nat.zero_le 1) (by simp) fun _ => ?_
  exact counts_commit (counts_orderResponse id)

theorem counts_createOrder (subject : Uuid) (payload : OrderCreateRequest) :
    CountsFrom 0 (createOrder settings subject payload) := by
  refine counts_before (ne_commit_of_looks (looks_requireRoles _ subject)) fun _ => ?_
  refine counts_before (ne_commit_of_looks (looks_checkRateLimit subject _)) fun _ => ?_
  refine counts_query (Nat.zero_le 1) (by simp) fun active => ?_
  refine counts_before (uses_raiseIf _ _) fun _ => ?_
  refine counts_query (Nat.zero_le 1) (by simp) fun products => ?_
  refine counts_before (uses_returnApi _) fun placement => ?_
  cases payload.promoCode with
  | none =>
      exact counts_before (uses_flushStocks _ (by simp)) fun _ =>
        counts_createOrder_finish subject placement _
  | some code =>
      refine counts_before (ne_commit_of_looks (looks_applyPromo code _)) fun promo => ?_
      refine counts_before (uses_flushStocks _ (by simp)) fun _ => ?_
      exact counts_before (uses_flushUses _ _ (by simp)) fun _ =>
        counts_createOrder_finish subject placement _

theorem counts_updateOrder_finish (subject id : Uuid) (order : Order) (items : List OrderItem)
    (placement : Placement) (assigned : Order) :
    CountsFrom 0 (updateOrder.finish subject id order items placement assigned) := by
  refine counts_before (uses_flushOrder order assigned (by simp)) fun _ => ?_
  refine counts_query (Nat.zero_le 1) (by simp) fun _ => ?_
  refine counts_query (Nat.zero_le 1) (by simp) fun _ => ?_
  refine counts_query (Nat.zero_le 1) (by simp) fun _ => ?_
  exact counts_commit (counts_orderResponse id)

theorem counts_updateOrder (subject id : Uuid) (payload : OrderUpdateRequest) :
    CountsFrom 0 (updateOrder settings subject id payload) := by
  refine counts_before (ne_commit_of_looks (looks_requireRoles _ subject)) fun user => ?_
  refine counts_before (ne_commit_of_looks (looks_loadOrder subject user id)) fun order => ?_
  refine counts_before (uses_raiseIf _ _) fun _ => ?_
  refine counts_before (ne_commit_of_looks (looks_checkRateLimit subject _)) fun _ => ?_
  refine counts_query (Nat.zero_le 1) (by simp) fun items => ?_
  refine counts_query (Nat.zero_le 1) (by simp) fun products => ?_
  refine counts_before (uses_returnApi _) fun placement => ?_
  cases order.promoCodeID with
  | none =>
      exact counts_before (uses_flushStocks _ (by simp)) fun _ =>
        counts_updateOrder_finish subject id order items placement _
  | some promoID =>
      refine counts_query (Nat.zero_le 1) (by simp) fun found => ?_
      refine counts_before (uses_require _ found) fun promo => ?_
      refine counts_query (Nat.zero_le 1) (by simp) fun now => ?_
      refine counts_before (uses_returnApi _) fun _ => ?_
      split
      · refine counts_before (uses_flushStocks _ (by simp)) fun _ => ?_
        exact counts_before (uses_flushUses promo _ (by simp)) fun _ =>
          counts_updateOrder_finish subject id order items placement _
      · refine counts_before (uses_returnApi _) fun discount => ?_
        exact counts_before (uses_flushStocks _ (by simp)) fun _ =>
          counts_updateOrder_finish subject id order items placement _

theorem counts_cancelOrder_finish (id : Uuid) (order : Order) :
    CountsFrom 0 (cancelOrder.finish id order) := by
  refine counts_before (uses_flushOrder order _ (by simp)) fun _ => ?_
  exact counts_commit (counts_orderResponse id)

theorem counts_cancelOrder (subject id : Uuid) : CountsFrom 0 (cancelOrder subject id) := by
  refine counts_before (ne_commit_of_looks (looks_requireRoles _ subject)) fun user => ?_
  refine counts_before (ne_commit_of_looks (looks_loadOrder subject user id)) fun order => ?_
  refine counts_before (uses_raiseIf _ _) fun _ => ?_
  refine counts_query (Nat.zero_le 1) (by simp) fun items => ?_
  refine counts_query (Nat.zero_le 1) (by simp) fun products => ?_
  cases order.promoCodeID with
  | none =>
      exact counts_before (uses_flushStocks _ (by simp)) fun _ =>
        counts_cancelOrder_finish id order
  | some promoID =>
      refine counts_query (Nat.zero_le 1) (by simp) fun found => ?_
      cases found with
      | none =>
          exact counts_before (uses_flushStocks _ (by simp)) fun _ =>
            counts_cancelOrder_finish id order
      | some promo =>
          refine counts_before (uses_flushStocks _ (by simp)) fun _ => ?_
          exact counts_before (uses_flushUses promo _ (by simp)) fun _ =>
            counts_cancelOrder_finish id order

theorem uses_flushProduct (id : Uuid) (change : ProductChange) :
    (flushProduct id change).Uses fun statement => statement ≠ .commit := by
  rw [flushProduct]
  split
  · trivial
  · exact uses_query (by simp)

theorem counts_createProduct (subject : Uuid) (payload : ProductCreate) :
    CountsFrom 0 (createProduct subject payload) := by
  refine counts_before (ne_commit_of_looks (looks_requireRoles _ subject)) fun user => ?_
  refine counts_before (ne_commit_of_looks (looks_productSeller subject user payload))
    fun sellerID => ?_
  refine counts_query (Nat.zero_le 1) (by simp) fun id => ?_
  exact counts_commit (counts_productResponse id)

theorem counts_updateProduct (subject id : Uuid) (payload : ProductUpdate) :
    CountsFrom 0 (updateProduct subject id payload) := by
  refine counts_before (ne_commit_of_looks (looks_requireRoles _ subject)) fun user => ?_
  refine counts_before (ne_commit_of_looks (looks_loadProduct subject user id)) fun product => ?_
  refine counts_before (uses_flushProduct id _) fun _ => ?_
  exact counts_commit (counts_productResponse id)

theorem counts_deleteProduct (subject id : Uuid) : CountsFrom 0 (deleteProduct subject id) := by
  refine counts_before (ne_commit_of_looks (looks_requireRoles _ subject)) fun user => ?_
  refine counts_before (ne_commit_of_looks (looks_loadProduct subject user id)) fun product => ?_
  refine counts_before (uses_flushProduct id _) fun _ => ?_
  exact counts_commit rfl

theorem counts_createPromoCode (subject : Uuid) (payload : PromoCodeCreate) :
    CountsFrom 0 (createPromoCode subject payload) := by
  refine counts_before (ne_commit_of_looks (looks_requireRoles _ subject)) fun _ => ?_
  refine counts_query (Nat.zero_le 1) (by simp) fun id => ?_
  refine counts_commit ?_
  refine counts_query (Nat.le_refl 1) (by simp) fun found => ?_
  cases found with
  | none => exact Nat.le_refl 1
  | some promo => rfl

theorem counts_handle (request : Request) : CountsFrom 0 (handle settings request) := by
  cases request with
  | createProduct subject payload => exact counts_createProduct subject payload
  | updateProduct subject id payload => exact counts_updateProduct subject id payload
  | deleteProduct subject id => exact counts_deleteProduct subject id
  | createOrder subject payload => exact counts_createOrder subject payload
  | updateOrder subject id payload => exact counts_updateOrder subject id payload
  | cancelOrder subject id => exact counts_cancelOrder subject id
  | createPromoCode subject payload => exact counts_createPromoCode subject payload

/-! ## The log -/

/-- A commit: the request that executes it, and what its session has loaded and
    written by then. -/
structure LoggedCommit where
  thread : Nat
  session : Session
  written : Rows

/-- The commit that the step executes. -/
def committing (settings : Settings) (pool : MarketPool) (event : MarketEvent) :
    Option LoggedCommit :=
  ((service settings).marks committed pool event).map fun i =>
    ⟨i, sessionOf pool i, pool.shared.db.pending i⟩

/-- The commits of a run, in their order. -/
def commitLog (settings : Settings) (pool : MarketPool) : List MarketEvent → List LoggedCommit
  | [] => []
  | event :: events => (committing settings pool event).toList ++
      match (service settings).next pool event with
      | some pool' => commitLog settings pool' events
      | none => []

theorem map_thread_commitLog (events : List MarketEvent) :
    (commitLog settings pool events).map LoggedCommit.thread =
      (service settings).marked committed pool events := by
  induction events generalizing pool with
  | nil => rfl
  | cons event events ih =>
      have hstep : (committing settings pool event).toList.map LoggedCommit.thread =
          ((service settings).marks committed pool event).toList := by
        rw [committing]
        cases (service settings).marks committed pool event with
        | none => rfl
        | some i => rfl
      rw [commitLog, Service.marked, List.map_append, hstep]
      cases (service settings).next pool event with
      | none => rfl
      | some pool' => exact congrArg _ ih

/-- What the commits of a log make of the rows, one after the other. A commit puts
    in place all that its session has written, which is the effect of its request. -/
inductive Applied (pool : MarketPool) (rows₀ : Rows) : List LoggedCommit → Rows → Prop where
  | nil : Applied pool rows₀ [] rows₀
  | commit {log : List LoggedCommit} {rows : Rows} {last : LoggedCommit} {request : Request}
      {status : Status Statement Answer HandlerError Response}
      (before : Applied pool rows₀ log rows)
      (hthread : pool.threads[last.thread]? = some ⟨request, status⟩)
      (hbehind : Behind last.session rows)
      (heffect : Effect last.session last.written rows (last.written ∪ rows) request) :
      Applied pool rows₀ (log ++ [last]) (last.written ∪ rows)

theorem Applied.next {log : List LoggedCommit} (h : Applied pool rows₀ log rows)
    (hnext : (service settings).next pool event = some final) : Applied final rows₀ log rows := by
  induction h with
  | nil => exact .nil
  | commit _ hthread hbehind heffect ih =>
      obtain ⟨⟨request', status'⟩, hafter, rfl⟩ := Service.thread_kept hnext hthread
      exact .commit ih hafter hbehind heffect

/-- A request executes its commit in a step that is marked. -/
theorem commits_of_marks {i : Nat}
    (h : (service settings).marks committed pool event = some i) :
    ∃ request, Commits pool event i request := by
  cases event with
  | step j choice =>
      simp only [Service.marks] at h
      split at h
      · rename_i op next hprogram
        obtain ⟨⟨answer, s⟩, _, hmark⟩ := Option.bind_eq_some_iff.mp h
        obtain ⟨request, hruns⟩ := Service.program?_eq_some.mp hprogram
        by_cases hop : op = .commit
        · subst hop
          split at hmark
          · cases hmark
            exact ⟨request, choice, next, rfl, hruns⟩
          · cases hmark
        · rw [if_neg (by simp [committed_of_ne hop answer])] at hmark
          cases hmark
      · cases h
  | start request => cases h
  | stop j => cases h
  | outside change => cases h

/-- Any other step leaves the committed rows. -/
theorem rows_of_marks (h : discipline.Holds (service settings) pool)
    (hnext : (service settings).next pool event = some final)
    (hmarks : (service settings).marks committed pool event = none) :
    rowsOf final = rowsOf pool := by
  rcases step_effect h hnext with ⟨hrows, _⟩ | ⟨i, request, ⟨choice, next, rfl, hruns⟩, _, _, _⟩
  · exact hrows
  · have hprogram := Service.program?_eq_some.mpr ⟨request, hruns⟩
    simp only [Service.next, hprogram, Option.map_eq_some_iff] at hnext
    obtain ⟨⟨answer, s⟩, hexec, rfl⟩ := hnext
    cases choice with
    | failure => rw [rowsOf, Service.update_shared, (execute_failure (i := i) hexec).2]
    | proceed generated =>
        -- a commit that is executed succeeds, so the step is marked
        obtain ⟨rfl, _⟩ := answerLoaded_eq (s := pool.shared.withDb (pool.shared.db.commit i)) hexec
        simp only [Service.marks, hprogram, hexec, Option.bind_some] at hmarks
        cases hmarks

/-- A step that is marked puts in place what its session has written. -/
theorem written_of_marks {i : Nat} (hnext : (service settings).next pool event = some final)
    (hmarks : (service settings).marks committed pool event = some i) :
    rowsOf final = pool.shared.db.pending i ∪ rowsOf pool := by
  obtain ⟨request, choice, next, rfl, hruns⟩ := commits_of_marks hmarks
  have hprogram := Service.program?_eq_some.mpr ⟨request, hruns⟩
  simp only [Service.next, hprogram, Option.map_eq_some_iff] at hnext
  obtain ⟨⟨answer, s⟩, hexec, rfl⟩ := hnext
  cases choice with
  | failure =>
      -- a commit that fails is not marked
      obtain ⟨rfl, _⟩ := execute_failure (i := i) hexec
      simp only [Service.marks, hprogram, hexec, Option.bind_some] at hmarks
      cases hmarks
  | proceed generated =>
      obtain ⟨_, rfl⟩ := answerLoaded_eq (s := pool.shared.withDb (pool.shared.db.commit i)) hexec
      rfl

theorem Applied.step {log : List LoggedCommit} (hfollowed : Followed settings pool)
    (h : Applied pool rows₀ log (rowsOf pool))
    (hnext : (service settings).next pool event = some final) :
    Applied final rows₀ (log ++ (committing settings pool event).toList) (rowsOf final) := by
  cases hmarks : (service settings).marks committed pool event with
  | none =>
      rw [rows_of_marks hfollowed.holds hnext hmarks, committing, hmarks, Option.map_none,
        Option.toList_none, List.append_nil]
      exact h.next hnext
  | some i =>
      obtain ⟨request, choice, next, rfl, hruns⟩ := commits_of_marks hmarks
      obtain ⟨⟨request', status⟩, hafter, rfl⟩ := Service.thread_kept hnext hruns
      rw [written_of_marks hnext hmarks, committing, hmarks]
      -- the handler has come to the effect before it executes its commit
      exact .commit (h.next hnext) hafter (hfollowed.behind i _ _ hruns)
        (hfollowed.holds.known sound hruns rfl)

theorem Applied.run {log : List LoggedCommit} {events : List MarketEvent}
    (h : Applied pool rows₀ log (rowsOf pool)) (hfollowed : Followed settings pool)
    (hrun : (service settings).run pool events = some final) :
    Applied final rows₀ (log ++ commitLog settings pool events) (rowsOf final) := by
  induction events generalizing pool log with
  | nil =>
      simp only [Service.run, Option.some.injEq] at hrun
      subst hrun
      rw [commitLog, List.append_nil]
      exact h
  | cons event events ih =>
      simp only [Service.run, Option.bind_eq_some_iff] at hrun
      obtain ⟨middle, hnext, hrest⟩ := hrun
      have hfinal := ih (h.step hfollowed hnext) (hfollowed.next hnext) hrest
      simpa only [commitLog, hnext, List.append_assoc] using hfinal

/-- No update is lost and none is made twice. In every run from stored rows the
    committed rows are what the commits of the run have made of them, each with what
    its session has written; each request commits at most once, a request answered
    with a response has committed, and one refused with an API error has not. -/
theorem committed_once (hrows : Stored rows₀) {events : List MarketEvent}
    (hrun : (service settings).run (start rows₀) events = some pool) :
    ((commitLog settings (start rows₀) events).map LoggedCommit.thread).Nodup ∧
      Applied pool rows₀ (commitLog settings (start rows₀) events) (rowsOf pool) ∧
      (∀ i request response, pool.Answered i request (.ok response) →
        i ∈ (commitLog settings (start rows₀) events).map LoggedCommit.thread) ∧
      ∀ i request error, pool.Answered i request (.error (.api error)) →
        i ∉ (commitLog settings (start rows₀) events).map LoggedCommit.thread := by
  have hnonempty : ∀ statement, Nonempty (Answer statement) := fun _ => ⟨.error .failure⟩
  have hmarked := Service.marked_run counts_handle hrun
  rw [map_thread_commitLog]
  refine ⟨?_, ?_, fun i request response hanswered => ?_, fun i request error hanswered => ?_⟩
  · refine List.nodup_iff_count.mpr fun i => hmarked.count_le (fun request result n hfits => ?_) i
    rcases result with (error | error) | response
    · exact Nat.le_trans (Nat.le_of_eq hfits) (Nat.zero_le 1)
    · exact hfits
    · exact Nat.le_of_eq hfits
  · have hstart : Applied (start rows₀) rows₀ [] rows₀ := .nil
    have happlied := hstart.run (followed_start hrows) hrun
    rwa [List.nil_append] at happlied
  · have hcount := hmarked.counted i request _ hanswered
    exact List.count_pos_iff.mp (Nat.lt_of_lt_of_eq Nat.one_pos (Eq.symm hcount))
  · exact List.count_eq_zero.mp (hmarked.counted i request _ hanswered)

/-- The order commits while the cancellation waits for the product row. -/
theorem committed_once_sample : ∃ pool : MarketPool,
    (service ⟨5⟩).run (start sampleRows) orderAndCancel = some pool ∧
      (commitLog ⟨5⟩ (start sampleRows) orderAndCancel).map LoggedCommit.thread = [0, 1] ∧
      Applied pool sampleRows (commitLog ⟨5⟩ (start sampleRows) orderAndCancel)
        (rowsOf pool) := by
  have hrun : ((service ⟨5⟩).run (start sampleRows) orderAndCancel).isSome := by
    decide +kernel
  have hlog : (commitLog ⟨5⟩ (start sampleRows) orderAndCancel).map LoggedCommit.thread =
      [0, 1] := by
    decide +kernel
  exact ⟨_, (Option.some_get hrun).symm, hlog,
    (committed_once (stored_of_check (by decide +kernel)) (Option.some_get hrun).symm).2.1⟩

end SoaHomework.Marketplace

import SoaHomework.MarketRuns
import SoaHomework.OtherRequests

/-!
# The guards of create_order

Before it takes a lock, `create_order` asks when the user's last order was accepted and
whether the user has an active order. `Guarded` is what the two guards are for. The phases
of the handler say which guard it has passed, what it has written by then (`Wrote`) and
what it has read of the committed rows (`Knows`).
-/

namespace SoaHomework.Marketplace

open StatementProgram

/-- The order `id` of the user `u` is created or waits for its payment. -/
def HasActive (rows : Rows) (u id : Uuid) : Prop :=
  ∃ o : Order, rows.lookup (.order id) = some o ∧ o.userID = u ∧ o.status.isActive = true

/-- The operation `k` is a `create_order` of the user `u` that was accepted at `t`. -/
def Accepted (rows : Rows) (u k : Uuid) (t : Int) : Prop :=
  rows.lookup (.operation k) = some ⟨u, .createOrder, t⟩

instance (rows : Rows) (u k : Uuid) (t : Int) : Decidable (Accepted rows u k t) :=
  inferInstanceAs (Decidable (rows.lookup (.operation k) = some _))

/-- `timedelta(minutes=settings.order_rate_limit_minutes)` -/
def Settings.orderDelta (settings : Settings) : Int := settings.orderRateLimitMinutes * 60000000

/-- The user has at most one active order, and at most one `create_order` was accepted in
    any window of `order_rate_limit_minutes`. -/
structure Guarded (settings : Settings) (u : Uuid) (rows : Rows) : Prop where
  active : ∀ id id', HasActive rows u id → HasActive rows u id' → id = id'
  spaced : ∀ opens k k' t t', Accepted rows u k t → Accepted rows u k' t' →
    opens ≤ t → t < opens + settings.orderDelta → opens ≤ t' →
    t' < opens + settings.orderDelta → k = k'

/-- From `rows` to `rows'` the user gets no active order and no accepted operation. -/
structure NoMore (u : Uuid) (rows rows' : Rows) : Prop where
  active : ∀ id, HasActive rows' u id → HasActive rows u id
  accepted : ∀ k t, Accepted rows' u k t → Accepted rows u k t

variable {settings : Settings} {u subject : Uuid} {rows rows' written : Rows}
  {session : Session} {request : Request}

theorem NoMore.refl (u : Uuid) (rows : Rows) : NoMore u rows rows :=
  ⟨fun _ h => h, fun _ _ h => h⟩

theorem Guarded.noMore (h : Guarded settings u rows) (hmore : NoMore u rows rows') :
    Guarded settings u rows' where
  active id id' hid hid' := h.active id id' (hmore.active id hid) (hmore.active id' hid')
  spaced opens k k' t t' hk hk' :=
    h.spaced opens k k' t t' (hmore.accepted k t hk) (hmore.accepted k' t' hk')

/-! ## Active orders -/

/-- The request is a `create_order` of the user `u`. -/
def Request.Creates (u : Uuid) : Request → Prop
  | .createOrder subject _ => subject = u
  | _ => False

theorem hasActive_congr {id : Uuid}
    (h : rows'.lookup (.order id) = rows.lookup (.order id)) :
    HasActive rows' u id ↔ HasActive rows u id := by
  rw [HasActive, h, HasActive]

/-- Only a `create_order` adds an active order, one to its user. -/
theorem Effect.hasActive (h : Effect session written rows rows' request) :
    ∃ id₀, ∀ u id, HasActive rows' u id →
      HasActive rows u id ∨ (request.Creates u ∧ id = id₀) := by
  have hkept : ∀ id₀, (∀ u id, HasActive rows' u id → HasActive rows u id) →
      ∃ id₀, ∀ u id, HasActive rows' u id →
        HasActive rows u id ∨ (request.Creates u ∧ id = id₀) :=
    fun id₀ hkeep => ⟨id₀, fun u id hid => Or.inl (hkeep u id hid)⟩
  have hwritten : ∀ {id₀ change uses} (f : Order → Order),
      OrderWrite written rows rows' id₀ change uses →
      rows'.lookup (.order id₀) = (rows.lookup (.order id₀)).map f →
      (∀ o, (f o).status.isActive = true → o.status.isActive = true) →
      (∀ o, (f o).userID = o.userID) →
      ∀ u id, HasActive rows' u id → HasActive rows u id := by
    intro id₀ change uses f hwrite horder hactive huser u id hid
    by_cases heq : id = id₀
    · subst heq
      obtain ⟨o', hrow', rfl, hactive'⟩ := hid
      rw [horder, Option.map_eq_some_iff] at hrow'
      obtain ⟨o, hrow, rfl⟩ := hrow'
      exact ⟨o, hrow, (huser o).symm, hactive o hactive'⟩
    · exact (hasActive_congr (hwrite.others id heq).1).mp hid
  cases h with
  | createProduct _ _ _ _ _ hothers =>
      exact hkept 0 fun u id => (hasActive_congr (hothers _ (by simp))).mp
  | writeProduct _ _ _ _ _ hothers =>
      exact hkept 0 fun u id => (hasActive_congr (hothers _ (by simp))).mp
  | createPromoCode _ _ _ _ _ _ hothers =>
      exact hkept 0 fun u id => (hasActive_congr (hothers _ (by simp))).mp
  | @createOrder subject _ _ id₀ order _ _ hwrite _ horder _ _ huser _ _ =>
      refine ⟨id₀, fun u id hid => ?_⟩
      by_cases heq : id = id₀
      · subst heq
        obtain ⟨o, hrow, hu, _⟩ := hid
        rw [horder, Option.some.injEq] at hrow
        subst hrow
        exact Or.inr ⟨huser.symm.trans hu, rfl⟩
      · exact Or.inl ((hasActive_congr (hwrite.others id heq).1).mp hid)
  | @updateOrder _ id₀ _ _ loaded assigned _ _ _ _ _ _ hwrite _ horder hstatus _ _ _ _ =>
      refine hkept id₀ (hwritten _ hwrite horder (fun o hactive => ?_) fun o => ?_)
      · rwa [assignOrder_status hstatus] at hactive
      · exact assignOrder_userID loaded assigned o
  | @cancelOrder _ id₀ _ loaded _ _ _ hactive hwrite horder _ _ =>
      refine hkept id₀ (hwritten _ hwrite horder (fun o hcanceled => ?_) fun o => ?_)
      · rw [(assignOrder_canceled hactive).1] at hcanceled
        cases hcanceled
      · exact assignOrder_userID loaded _ o

theorem not_hasActive {id : Uuid} (h : activeOrder rows u = none) : ¬ HasActive rows u id := by
  rintro ⟨o, hrow, huser, hactive⟩
  have hnone := List.findSome?_eq_none_iff.mp h ⟨.order id, o⟩ (AList.mem_lookup_iff.mp hrow)
  simp [huser, hactive] at hnone

/-! ## Accepted operations -/

/-- An accepted operation is one of those whose latest time is asked for. -/
theorem Accepted.asked {k : Uuid} {t : Int} (h : Accepted rows u k t) :
    ∃ times : List Int, lastOperation rows u .createOrder = times.max? ∧ t ∈ times := by
  refine ⟨_, rfl, ?_⟩
  exact List.mem_filterMap.mpr ⟨⟨.operation k, ⟨u, .createOrder, t⟩⟩, AList.mem_lookup_iff.mp h,
    by simp⟩

theorem Accepted.le_last {k : Uuid} {t last : Int} (h : Accepted rows u k t)
    (hlast : lastOperation rows u .createOrder = some last) : t ≤ last := by
  obtain ⟨times, htimes, hmem⟩ := h.asked
  rw [htimes] at hlast
  exact (List.max?_eq_some_iff.mp hlast).2 t hmem

theorem Accepted.last_ne_none {k : Uuid} {t : Int} (h : Accepted rows u k t) :
    lastOperation rows u .createOrder ≠ none := by
  intro hnone
  obtain ⟨times, htimes, hmem⟩ := h.asked
  rw [htimes, List.max?_eq_none_iff] at hnone
  rw [hnone] at hmem
  cases hmem

/-- A user whom both guards let pass. -/
theorem guarded_of_none (hactive : activeOrder rows u = none)
    (hlast : lastOperation rows u .createOrder = none) : Guarded settings u rows where
  active _ _ hid := absurd hid (not_hasActive hactive)
  spaced _ _ _ _ _ hk := absurd hlast hk.last_ne_none

/-! ## The phases of the handler -/

/-- Where a `create_order` stands with its guards. -/
inductive GuardPhase where
  | fresh
  /-- The user has been loaded, and with it the transaction has begun. -/
  | begun
  /-- The last operation was accepted at this time. -/
  | lastSeen (last : Int)
  /-- The rate limit has been checked. -/
  | spaced
  /-- There was no active order, either. -/
  | passed
  /-- The operation has been inserted. -/
  | recorded
  | committed
  /-- A guard or a statement has failed. -/
  | refused

/-- A statement between the guards and the insert of the operation. -/
def Statement.places : Statement → Bool
  | .now => true
  | .selectProductsForUpdate _ => true
  | .selectPromoByCode _ => true
  | .updateStock _ _ => true
  | .updateUses _ _ => true
  | .insertOrder _ => true
  | .insertItems _ _ => true
  | _ => false

/-- The statements of a `create_order` of `subject` in their order. -/
def guardAdvance (settings : Settings) (subject : Uuid) :
    (statement : Statement) → Answer statement → GuardPhase → Option GuardPhase
  | _, .error _, _ => some .refused
  | .selectUser _, .ok _, .fresh => some .begun
  | .selectLastOperation userID operationType, .ok last, .begun =>
      if userID = subject ∧ operationType = .createOrder then some (last.elim .spaced .lastSeen)
      else none
  | .now, .ok now, .lastSeen last =>
      some (if now - last < settings.orderDelta then .refused else .spaced)
  | .selectActiveOrder userID, .ok active, .spaced =>
      if userID = subject then some (if active.isSome then .refused else .passed) else none
  | .insertOperation userID operationType, .ok _, .passed =>
      if userID = subject ∧ operationType = .createOrder then some .recorded else none
  | .commit, .ok _, .recorded => some .committed
  | .refreshOrder _, .ok _, .committed => some .committed
  | .selectItems _, .ok _, .committed => some .committed
  | statement, .ok _, .passed => if statement.places then some .passed else none
  | _, _, _ => none

/-- The program is what is left of a `create_order` of `subject` in the phase. -/
abbrev GuardPhase.Admits (settings : Settings) (subject : Uuid) {α : Type} (phase : GuardPhase)
    (p : Handler α) (post : GuardPhase → α → Prop) : Prop :=
  p.Obeys (guardAdvance settings subject) post phase

section Admits

variable {α β : Type} {phase : GuardPhase}

theorem admits_query {statement : Statement} (after : Result statement → GuardPhase)
    (h : ∀ result, guardAdvance settings subject statement (.ok result) phase =
      some (after result)) :
    phase.Admits settings subject (query statement)
      fun phase' result => phase' = after result := by
  intro answer
  cases answer with
  | ok result => exact ⟨after result, h result, rfl⟩
  | error error => exact ⟨.refused, rfl, trivial⟩

theorem admits_places {statement : Statement} (h : statement.places = true) :
    GuardPhase.passed.Admits settings subject (query statement) fun phase _ => phase = .passed := by
  refine admits_query (fun _ => .passed) fun result => ?_
  cases statement with
  | now => rfl
  | selectProductsForUpdate ids => rfl
  | selectPromoByCode code => rfl
  | updateStock id stock => rfl
  | updateUses id uses => rfl
  | insertOrder order => rfl
  | insertItems id lines => rfl
  | _ => cases h

/-- A part that executes nothing. -/
theorem admits_still {p : Handler α} (h : p.Uses fun _ => False) :
    phase.Admits settings subject p fun phase' _ => phase' = phase :=
  Program.obeys_of_uses h fun _ _ hop => hop.elim

theorem admits_requireRoles (roles : List UserRole) (user : Uuid) :
    GuardPhase.fresh.Admits settings subject (requireRoles roles user)
      fun phase _ => phase = .begun := by
  apply Program.obeys_bind (admits_query (fun _ => .begun) fun _ => rfl)
  rintro found _ rfl
  apply Program.obeys_bind (admits_still (uses_require _ found))
  rintro user _ rfl
  split
  · rfl
  · trivial

theorem admits_checkRateLimit :
    GuardPhase.begun.Admits settings subject (checkRateLimit settings subject .createOrder)
      fun phase _ => phase = .spaced := by
  have hlast : ∀ last : Option Int, guardAdvance settings subject
      (.selectLastOperation subject .createOrder) (.ok last) .begun =
        some (last.elim .spaced .lastSeen) := fun last => if_pos ⟨rfl, rfl⟩
  apply Program.obeys_bind (admits_query _ hlast)
  rintro last _ rfl
  cases last with
  | none => rfl
  | some last =>
      have hnow : ∀ now : Int, guardAdvance settings subject .now (.ok now) (.lastSeen last) =
          some (if now - last < settings.orderDelta then .refused else .spaced) := fun _ => rfl
      apply Program.obeys_bind (admits_query _ hnow)
      rintro now _ rfl
      rw [Settings.orderDelta]
      by_cases hearly : now - last < settings.orderRateLimitMinutes * 60000000
      · rw [decide_eq_true hearly]
        trivial
      · rw [decide_eq_false hearly, if_neg hearly]
        rfl

theorem admits_applyPromo (code : String) (total : ℚ) :
    GuardPhase.passed.Admits settings subject (applyPromo code total)
      fun phase _ => phase = .passed := by
  apply Program.obeys_bind (admits_places rfl)
  rintro found _ rfl
  apply Program.obeys_bind (admits_still (uses_require _ found))
  rintro promo _ rfl
  apply Program.obeys_bind (admits_places rfl)
  rintro now _ rfl
  apply Program.obeys_bind (admits_still (uses_returnApi _))
  rintro _ _ rfl
  apply Program.obeys_bind (admits_still (uses_returnApi _))
  rintro discount _ rfl
  rfl

theorem admits_flushStocks (changes : List (Uuid × Int)) :
    GuardPhase.passed.Admits settings subject (flushStocks changes)
      fun phase _ => phase = .passed := by
  induction changes with
  | nil => rfl
  | cons change changes ih =>
      apply Program.obeys_bind (admits_places rfl)
      rintro _ _ rfl
      exact ih

theorem admits_flushUses (promoID : Uuid) (promo : PromoCode) (uses : Int) :
    GuardPhase.passed.Admits settings subject (flushUses promoID promo uses)
      fun phase _ => phase = .passed := by
  rw [flushUses]
  split
  · rfl
  · exact admits_places rfl

theorem admits_createFinish (placement : Placement) (order : Order) :
    GuardPhase.passed.Admits settings subject (createOrder.finish subject placement order)
      fun _ _ => True := by
  have hrecord : guardAdvance settings subject (.insertOperation subject .createOrder) (.ok ())
      .passed = some .recorded := if_pos ⟨rfl, rfl⟩
  apply Program.obeys_bind (admits_places rfl)
  rintro id _ rfl
  apply Program.obeys_bind (admits_places rfl)
  rintro _ _ rfl
  apply Program.obeys_bind (admits_query (fun _ => .recorded) fun _ => hrecord)
  rintro _ _ rfl
  apply Program.obeys_bind (admits_query (fun _ => .committed) fun _ => rfl)
  rintro _ _ rfl
  apply Program.obeys_bind (admits_query (fun _ => .committed) fun _ => rfl)
  rintro found _ rfl
  cases found with
  | none => trivial
  | some order =>
      apply Program.obeys_bind (admits_query (fun _ => .committed) fun _ => rfl)
      rintro items _ rfl
      trivial

/-- The handler goes through the phases in their order. -/
theorem admits_createOrder (payload : OrderCreateRequest) :
    GuardPhase.fresh.Admits settings subject (createOrder settings subject payload)
      fun _ _ => True := by
  have hactive : ∀ active : Option Uuid, guardAdvance settings subject
      (.selectActiveOrder subject) (.ok active) .spaced =
        some (if active.isSome then .refused else .passed) := fun active => if_pos rfl
  apply Program.obeys_bind (admits_requireRoles _ subject)
  rintro user _ rfl
  apply Program.obeys_bind admits_checkRateLimit
  rintro _ _ rfl
  apply Program.obeys_bind (admits_query _ hactive)
  rintro active _ rfl
  cases active with
  | some id => trivial
  | none =>
      apply Program.obeys_bind (admits_still (uses_raiseIf _ _))
      rintro _ _ rfl
      apply Program.obeys_bind (admits_places rfl)
      rintro products _ rfl
      apply Program.obeys_bind (admits_still (uses_returnApi _))
      rintro placement _ rfl
      cases payload.promoCode with
      | none =>
          apply Program.obeys_bind (admits_flushStocks _)
          rintro _ _ rfl
          exact admits_createFinish placement _
      | some code =>
          apply Program.obeys_bind (admits_applyPromo code _)
          rintro ⟨promoID, promo, discount⟩ _ rfl
          apply Program.obeys_bind (admits_flushStocks _)
          rintro _ _ rfl
          apply Program.obeys_bind (admits_flushUses promoID promo _)
          rintro _ _ rfl
          exact admits_createFinish placement _

end Admits

/-! ## The transitions -/

/-- What a statement that has succeeded does to the phase. -/
inductive GuardStep (settings : Settings) (subject : Uuid) :
    (statement : Statement) → Result statement → GuardPhase → GuardPhase → Prop where
  | begin (id : Uuid) (user : Option User) :
      GuardStep settings subject (.selectUser id) user .fresh .begun
  | last (last : Option Int) :
      GuardStep settings subject (.selectLastOperation subject .createOrder) last .begun
        (last.elim .spaced .lastSeen)
  | limit (last now : Int) :
      GuardStep settings subject .now now (.lastSeen last)
        (if now - last < settings.orderDelta then .refused else .spaced)
  | active (active : Option Uuid) :
      GuardStep settings subject (.selectActiveOrder subject) active .spaced
        (if active.isSome then .refused else .passed)
  | place {statement : Statement} (result : Result statement)
      (hplaces : statement.places = true) :
      GuardStep settings subject statement result .passed .passed
  | record : GuardStep settings subject (.insertOperation subject .createOrder) () .passed .recorded
  | commit : GuardStep settings subject .commit () .recorded .committed
  | report {statement : Statement} (result : Result statement) (hcommit : statement ≠ .commit) :
      GuardStep settings subject statement result .committed .committed

theorem guardStep_of_advance {statement : Statement} {result : Result statement}
    {phase phase' : GuardPhase}
    (h : guardAdvance settings subject statement (.ok result) phase = some phase') :
    GuardStep settings subject statement result phase phase' := by
  cases phase with
  | fresh =>
      cases statement with
      | selectUser id =>
          obtain rfl := Option.some.inj h
          exact .begin id result
      | _ => cases h
  | begun =>
      cases statement with
      | selectLastOperation userID operationType =>
          simp only [guardAdvance, Option.ite_none_right_eq_some, Option.some.injEq] at h
          obtain ⟨⟨rfl, rfl⟩, rfl⟩ := h
          exact .last result
      | _ => cases h
  | lastSeen last =>
      cases statement with
      | now =>
          obtain rfl := Option.some.inj h
          exact .limit last result
      | _ => cases h
  | spaced =>
      cases statement with
      | selectActiveOrder userID =>
          simp only [guardAdvance, Option.ite_none_right_eq_some, Option.some.injEq] at h
          obtain ⟨rfl, rfl⟩ := h
          exact .active result
      | _ => cases h
  | passed =>
      have hplaced : statement.places = true → phase' = .passed →
          GuardStep settings subject statement result .passed phase' := by
        rintro hplaces rfl
        exact .place result hplaces
      cases statement with
      | insertOperation userID operationType =>
          simp only [guardAdvance, Option.ite_none_right_eq_some, Option.some.injEq] at h
          obtain ⟨⟨rfl, rfl⟩, rfl⟩ := h
          exact .record
      | now => exact hplaced rfl (Option.some.inj h).symm
      | selectProductsForUpdate ids => exact hplaced rfl (Option.some.inj h).symm
      | selectPromoByCode code => exact hplaced rfl (Option.some.inj h).symm
      | updateStock id stock => exact hplaced rfl (Option.some.inj h).symm
      | updateUses id uses => exact hplaced rfl (Option.some.inj h).symm
      | insertOrder order => exact hplaced rfl (Option.some.inj h).symm
      | insertItems id lines => exact hplaced rfl (Option.some.inj h).symm
      | _ => cases h
  | recorded =>
      cases statement with
      | commit =>
          obtain rfl := Option.some.inj h
          exact .commit
      | _ => cases h
  | committed =>
      cases statement with
      | refreshOrder id =>
          obtain rfl := Option.some.inj h
          exact .report result (by simp)
      | selectItems id =>
          obtain rfl := Option.some.inj h
          exact .report result (by simp)
      | _ => cases h
  | refused =>
      cases statement with
      | _ => cases h

/-! ## What the statements write -/

section Statements

variable {i : Nat} {s s' : State} {generated : List Uuid}

/-- Neither the start of the transaction nor the operations it has inserted change. -/
structure Continues (i : Nat) (s s' : State) : Prop where
  began : ∀ b, (s.sessions i).began = some b → (s'.sessions i).began = some b
  operations : ∀ k, (s'.db.pending i).lookup (.operation k) =
    (s.db.pending i).lookup (.operation k)

theorem proceed_continues {statement : Statement} {answer : Answer statement}
    (hcommit : statement ≠ .commit)
    (hrecord : ∀ userID operationType, statement ≠ .insertOperation userID operationType)
    (h : proceed i generated s statement = some (answer, s')) : Continues i s s' := by
  have hsame : s' = s → Continues i s s' := by
    rintro rfl
    exact ⟨fun _ hb => hb, fun _ => rfl⟩
  have hload : ∀ session : Session, s' = s.withSession i session →
      (∀ b, (s.sessions i).began = some b → session.began = some b) → Continues i s s' := by
    rintro session rfl hbegan
    refine ⟨fun b hb => ?_, fun _ => rfl⟩
    rw [withSession_self]
    exact hbegan b hb
  have hdb : ∀ db : Db, (∀ k, (db.pending i).lookup (.operation k) =
      (s.db.pending i).lookup (.operation k)) → s' = s.withDb db → Continues i s s' := by
    rintro db hoperations rfl
    exact ⟨fun _ hb => hb, hoperations⟩
  have hupdated : ∀ {k : Key} {set : Row k → Row k} {check : Row k → Bool}
      {answer : Except DbError Unit}, (∀ id, .operation id ≠ k) →
      answerUpdate s (s.db.update i k set check) = some (answer, s') → Continues i s s' := by
    intro k set check answer hk hupdate
    obtain ⟨written, db, hrow, _, hs'⟩ := answerUpdate_eq hupdate
    exact hdb db (fun id => RowStore.update_pending hrow (hk id)) hs'
  have hinserted : ∀ {α : Type} {k : Key} {row : Row k} {value : α}
      {answer : Except DbError α}, (∀ id, .operation id ≠ k) →
      answerDb s value (s.db.insertRow i k row) = some (answer, s') → Continues i s s' := by
    intro α k row value answer hk hinsert
    obtain ⟨db, hrow, _, hs'⟩ := answerDb_eq hinsert
    refine hdb db (fun id => ?_) hs'
    rw [RowStore.insertRow_pending hrow, AList.lookup_insert_ne (hk id)]
  cases statement with
  | commit => exact absurd rfl hcommit
  | insertOperation userID operationType => exact absurd rfl (hrecord userID operationType)
  | selectUser id =>
      refine hload _ (answerLoaded_eq h).2 fun b hb => ?_
      rw [hb]
      rfl
  | selectPromoByCode code => exact hload _ (answerLoaded_eq h).2 fun _ hb => hb
  | selectPromo id => exact hload _ (answerLoaded_eq h).2 fun _ hb => hb
  | selectOrder id => exact hload _ (answerLoaded_eq h).2 fun _ hb => hb
  | selectItems orderID => exact hload _ (answerLoaded_eq h).2 fun _ hb => hb
  | selectProductsForUpdate ids =>
      obtain ⟨db, hlock, _, hs'⟩ := answerDb_eq h
      exact hdb db (fun k => by rw [RowStore.lockAll_pending hlock]) hs'
  | updateStock id stock => exact hupdated (by simp) h
  | updateUses id uses => exact hupdated (by simp) h
  | updateOrder id change => exact hupdated (by simp) h
  | updateProduct id change =>
      simp only [proceed] at h
      split at h
      · exact hsame (Prod.mk.inj (Option.some.inj h)).2.symm
      · exact hupdated (by simp) h
  | deleteItems orderID ids =>
      obtain ⟨db, hdelete, _, hs'⟩ := answerDb_eq h
      obtain ⟨⟨written, db₁⟩, hupdate, rfl⟩ := Option.map_eq_some_iff.mp hdelete
      exact hdb _ (fun k => RowStore.update_pending hupdate (by simp)) hs'
  | insertOrder order =>
      simp only [proceed] at h
      split at h
      · obtain ⟨id, _, hinsert⟩ := Option.bind_eq_some_iff.mp h
        exact hinserted (by simp) hinsert
      · exact hsame (Prod.mk.inj (Option.some.inj h)).2.symm
  | insertProduct product =>
      simp only [proceed] at h
      split at h
      · obtain ⟨id, _, hinsert⟩ := Option.bind_eq_some_iff.mp h
        exact hinserted (by simp) hinsert
      · exact hsame (Prod.mk.inj (Option.some.inj h)).2.symm
  | insertPromo promo =>
      simp only [proceed] at h
      split at h
      · obtain ⟨id, _, hinsert⟩ := Option.bind_eq_some_iff.mp h
        obtain ⟨⟨written, db⟩, hrow, heq⟩ := Option.map_eq_some_iff.mp hinsert
        exact hdb db (fun k => RowStore.insert_pending hrow (by simp)) (Prod.mk.inj heq).2.symm
      · exact hsame (Prod.mk.inj (Option.some.inj h)).2.symm
  | insertItems orderID lines =>
      simp only [proceed] at h
      split at h
      · obtain ⟨db, hrows, _, hs'⟩ := answerDb_eq h
        refine hdb db (fun k => ?_) hs'
        unfold insertItems at hrows
        split at hrows
        · rw [RowStore.insertRow_pending hrows, AList.lookup_insert_ne (by simp)]
        · obtain ⟨⟨written, db₁⟩, hupdate, rfl⟩ := Option.map_eq_some_iff.mp hrows
          exact RowStore.update_pending hupdate (by simp)
      · cases h
  | now => exact hsame (answerRead_eq h).2
  | selectLastOperation userID operationType => exact hsame (answerRead_eq h).2
  | selectActiveOrder userID => exact hsame (answerRead_eq h).2
  | selectProduct id => exact hsame (answerRead_eq h).2
  | refreshOrder id => exact hsame (answerRead_eq h).2
  | refreshProduct id => exact hsame (answerRead_eq h).2
  | refreshPromo id => exact hsame (answerRead_eq h).2

/-- The operation that a statement inserts is stamped with the start of the transaction. -/
theorem proceed_insertOperation {userID : Uuid} {operationType : OperationType}
    {answer : Except DbError Unit}
    (h : proceed i generated s (.insertOperation userID operationType) = some (answer, s')) :
    s'.sessions i = s.sessions i ∧ ∃ k, s'.db.pending i = (s.db.pending i).insert (.operation k)
      ⟨userID, operationType, (s.sessions i).began.getD s.clock⟩ := by
  obtain ⟨id, _, hinsert⟩ := Option.bind_eq_some_iff.mp h
  obtain ⟨db, hrow, _, rfl⟩ := answerDb_eq hinsert
  exact ⟨rfl, id, RowStore.insertRow_pending hrow⟩

end Statements

/-! ## What holds in a phase -/

/-- What the session has written of operations. Before the guards it has written nothing,
    and it sees the committed rows. -/
def GuardPhase.Wrote (subject : Uuid) (session : Session) (written : Rows) : GuardPhase → Prop
  | .fresh => written = ∅
  | .begun => session.began.isSome ∧ written = ∅
  | .lastSeen _ => session.began.isSome ∧ written = ∅
  | .spaced => session.began.isSome ∧ written = ∅
  | .passed => session.began.isSome ∧ ∀ k, written.lookup (.operation k) = none
  | .recorded => ∃ b id, session.began = some b ∧ ∀ k op,
      written.lookup (.operation k) = some op → k = id ∧ op = ⟨subject, .createOrder, b⟩
  | .committed => True
  | .refused => True

/-- The last accepted operation was long enough before the transaction began. -/
def Due (settings : Settings) (subject : Uuid) (session : Session) (rows : Rows) : Prop :=
  ∀ k t b, Accepted rows subject k t → session.began = some b → t + settings.orderDelta ≤ b

/-- What the guards that have been passed say of the committed rows. -/
def GuardPhase.Knows (settings : Settings) (subject : Uuid) (session : Session) (rows : Rows) :
    GuardPhase → Prop
  | .lastSeen last => ∀ k t, Accepted rows subject k t → t ≤ last
  | .spaced => Due settings subject session rows
  | .passed => Due settings subject session rows ∧ ∀ id, ¬ HasActive rows subject id
  | .recorded => Due settings subject session rows ∧ ∀ id, ¬ HasActive rows subject id
  | _ => True

section Phases

variable {phase phase' : GuardPhase} {i : Nat} {s s' : State} {generated : List Uuid}

theorem Due.noMore (h : Due settings subject session rows) (hmore : NoMore subject rows rows') :
    Due settings subject session rows' :=
  fun k t b hk hb => h k t b (hmore.accepted k t hk) hb

theorem Due.began {session' : Session} (h : Due settings subject session rows)
    (hbegan : session.began.isSome)
    (hsame : ∀ b, session.began = some b → session'.began = some b) :
    Due settings subject session' rows := by
  intro k t b hk hb
  obtain ⟨b₀, hb₀⟩ := Option.isSome_iff_exists.mp hbegan
  rw [hsame b₀ hb₀, Option.some.injEq] at hb
  subst hb
  exact h k t b₀ hk hb₀

/-- What is known stays known while the user gets nothing new. -/
theorem GuardPhase.Knows.noMore (h : phase.Knows settings subject session rows)
    (hmore : NoMore subject rows rows') : phase.Knows settings subject session rows' := by
  cases phase with
  | lastSeen last => exact fun k t hk => h k t (hmore.accepted k t hk)
  | spaced => exact Due.noMore h hmore
  | passed => exact ⟨h.1.noMore hmore, fun id hid => h.2 id (hmore.active id hid)⟩
  | recorded => exact ⟨h.1.noMore hmore, fun id hid => h.2 id (hmore.active id hid)⟩
  | _ => trivial

theorem Continues.isSome_began (h : Continues i s s') (hbegan : (s.sessions i).began.isSome) :
    (s'.sessions i).began.isSome := by
  obtain ⟨b, hb⟩ := Option.isSome_iff_exists.mp hbegan
  rw [h.began b hb]
  rfl

/-- A statement of the handler writes what the next phase says. -/
theorem GuardStep.wrote {statement : Statement} {result : Result statement}
    (h : GuardStep settings subject statement result phase phase')
    (hrun : proceed i generated s statement = some (.ok result, s'))
    (hwrote : phase.Wrote subject (s.sessions i) (s.db.pending i)) :
    phase'.Wrote subject (s'.sessions i) (s'.db.pending i) := by
  cases h with
  | begin id user =>
      obtain ⟨_, rfl⟩ := answerLoaded_eq hrun
      refine ⟨?_, hwrote⟩
      rw [withSession_self]
      cases (s.sessions i).began with
      | none => rfl
      | some b => rfl
  | last last =>
      obtain ⟨_, rfl⟩ := answerRead_eq hrun
      cases last with
      | none => exact hwrote
      | some last => exact hwrote
  | limit last now =>
      obtain ⟨_, rfl⟩ := answerRead_eq hrun
      split
      · trivial
      · exact hwrote
  | active active =>
      obtain ⟨_, rfl⟩ := answerRead_eq hrun
      obtain ⟨hbegan, hempty⟩ := hwrote
      split
      · trivial
      · refine ⟨hbegan, fun k => ?_⟩
        rw [hempty, AList.lookup_empty]
  | place _ hplaces =>
      have hcontinues : Continues i s s' := by
        refine proceed_continues ?_ ?_ hrun
        · rintro rfl
          cases hplaces
        · rintro userID operationType rfl
          cases hplaces
      refine ⟨hcontinues.isSome_began hwrote.1, fun k => ?_⟩
      rw [hcontinues.operations, hwrote.2]
  | record =>
      obtain ⟨hsession, id, hpending⟩ := proceed_insertOperation hrun
      obtain ⟨hbegan, hnone⟩ := hwrote
      obtain ⟨b, hb⟩ := Option.isSome_iff_exists.mp hbegan
      refine ⟨b, id, by rw [hsession, hb], fun k op hop => ?_⟩
      rw [hpending, hb] at hop
      by_cases hk : k = id
      · subst hk
        rw [AList.lookup_insert, Option.some.injEq] at hop
        exact ⟨rfl, hop.symm⟩
      · rw [AList.lookup_insert_ne (by simpa using hk), hnone] at hop
        cases hop
  | commit => trivial
  | report _ _ => trivial

theorem view_of_empty (h : s.db.pending i = ∅) : s.db.view i = s.db.rows := by
  rw [RowStore.view, h, AList.empty_union]

/-- A guard that is passed says so of the committed rows. The clock shows the time at
    which the transaction began. -/
theorem GuardStep.knows {statement : Statement} {result : Result statement}
    (h : GuardStep settings subject statement result phase phase')
    (hrun : proceed i generated s statement = some (.ok result, s'))
    (hclock : statement = .now → (s.sessions i).began = some s.clock)
    (hwrote : phase.Wrote subject (s.sessions i) (s.db.pending i))
    (hknows : phase.Knows settings subject (s.sessions i) s.db.rows) :
    phase'.Knows settings subject (s'.sessions i) s'.db.rows := by
  cases h with
  | begin id user => trivial
  | last last =>
      obtain ⟨hresult, rfl⟩ := answerRead_eq hrun
      rw [view_of_empty hwrote.2, Except.ok.injEq] at hresult
      cases last with
      | none => exact fun k t b hk => absurd hresult.symm hk.last_ne_none
      | some last => exact fun k t hk => hk.le_last hresult.symm
  | limit last now =>
      obtain ⟨hresult, rfl⟩ := answerRead_eq hrun
      rw [Except.ok.injEq] at hresult
      subst hresult
      split
      · trivial
      · rename_i hlate
        intro k t b hk hb
        rw [hclock rfl, Option.some.injEq] at hb
        have hle := hknows k t hk
        omega
  | active active =>
      obtain ⟨hresult, rfl⟩ := answerRead_eq hrun
      rw [view_of_empty hwrote.2, Except.ok.injEq] at hresult
      cases active with
      | some id => trivial
      | none => exact ⟨hknows, fun id => not_hasActive hresult.symm⟩
  | @place statement _ hplaces =>
      have hcommit : statement ≠ .commit := by
        rintro rfl
        cases hplaces
      have hrecord : ∀ userID operationType, statement ≠ .insertOperation userID operationType := by
        rintro userID operationType rfl
        cases hplaces
      have hcontinues := proceed_continues hcommit hrecord hrun
      rw [(proceed_reach hcommit hrun).access.rows]
      exact ⟨hknows.1.began hwrote.1 hcontinues.began, hknows.2⟩
  | record =>
      obtain ⟨hsession, _⟩ := proceed_insertOperation hrun
      rw [(proceed_reach (by simp) hrun).access.rows, hsession]
      exact hknows
  | commit => trivial
  | report _ _ => trivial

end Phases

end SoaHomework.Marketplace

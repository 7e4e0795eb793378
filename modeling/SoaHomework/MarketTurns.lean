import SoaHomework.MarketCommits
import SoaHomework.SequentialRuns

/-!
# The marketplace's requests one after another

Between two statements of a request that runs alone only the clock moves, so
its whole transaction sees the committed rows it has started on (`On`). What a
handler has checked and computed when it commits is therefore stated from these
rows (`Commit`): who acts, whose row it is, and what the order costs.
-/

namespace SoaHomework.Marketplace

open StatementProgram

/-! ## What a handler commits -/

/-- The user whose token the request carries has one of the roles. -/
structure Acts (rows : Rows) (subject : Uuid) (roles : List UserRole) (user : User) : Prop where
  row : rows.lookup (.user subject) = some user
  role : user.role ∈ roles

def OrderItem.line (item : OrderItem) : ItemLine :=
  ⟨item.productID, item.quantity, item.priceAtOrder⟩

/-- The lines are priced from the rows of their products. -/
def Priced (rows : Rows) (lines : List ItemLine) : Prop :=
  ∀ line ∈ lines, 1 ≤ line.quantity ∧
    ∃ product : Product, rows.lookup (.product line.productID) = some product ∧
      line.priceAtOrder = product.price

/-- What an order whose lines cost `total` is to pay. -/
inductive Billed (rows : Rows) (total : ℚ) (o : Order) : Prop where
  | plain (hnone : o.promoCodeID = none) (htotal : o.totalAmount = total)
      (hdiscount : o.discountAmount = 0)
  | discounted (q : Uuid) (promo : PromoCode) (hpromo : o.promoCodeID = some q)
      (hrow : rows.lookup (.promo q) = some promo)
      (hdiscount : calculateDiscount promo total = .ok o.discountAmount)
      (htotal : o.totalAmount = total - o.discountAmount)

/-- Nothing is written to the orders other than `id`, and to no user. -/
structure OtherRows (written : Rows) (id : Uuid) : Prop where
  orders : ∀ id', id' ≠ id → written.lookup (.order id') = none ∧
    written.lookup (.items id') = none
  users : ∀ subject, written.lookup (.user subject) = none

/-- The user may act on the order. -/
def MayChange (user : User) (subject : Uuid) (o : Order) : Prop :=
  user.role = .admin ∨ o.userID = subject

/-- What a request that commits `written` over `rows` has checked and computed. -/
inductive Commit (rows written : Rows) : Request → Prop where
  | createProduct {subject payload} (user : User) (sellerID id : Uuid)
      (hacts : Acts rows subject [.seller, .admin] user)
      (hseller : user.role ≠ .admin → sellerID = subject) (hfresh : .product id ∉ rows)
      (hwritten : written = (∅ : Rows).insert (.product id) (Product.stored
        ⟨payload.name, payload.description, payload.price, payload.stock, payload.category,
          payload.status, sellerID⟩)) :
      Commit rows written (.createProduct subject payload)
  | writeProduct {request} (user : User) (product : Product) (subject id : Uuid)
      (change : ProductChange)
      (hrequest : (∃ payload, request = .updateProduct subject id payload) ∨
        request = .deleteProduct subject id)
      (hacts : Acts rows subject [.seller, .admin] user)
      (hrow : rows.lookup (.product id) = some product)
      (howner : user.role = .seller → product.sellerID = subject)
      (hprice : ∀ price, change.price = some (some price) → 0 < price)
      (hwritten : written = ∅ ∨
        written = (∅ : Rows).insert (.product id) (change.apply product).stored) :
      Commit rows written request
  | createPromoCode {subject payload} (id : Uuid) (hfresh : .promo id ∉ rows)
      (hwritten : written = (∅ : Rows).insert (.promo id) (PromoCode.stored
        ⟨payload.code, payload.discountType, payload.discountValue, payload.minOrderAmount,
          payload.maxUses, 0, payload.validFrom, payload.validUntil,
          payload.active.getD true⟩)) :
      Commit rows written (.createPromoCode subject payload)
  | createOrder {subject payload} (id : Uuid) (order : Order) (items : List OrderItem)
      (huser : order.userID = subject) (hstatus : order.status = .created)
      (hpriced : Priced rows (items.map OrderItem.line))
      (hbilled : Billed rows (linesTotal (items.map OrderItem.line)) order)
      (hfresh : .order id ∉ rows)
      (horder : written.lookup (.order id) = some order.stored)
      (hitems : written.lookup (.items id) = some (itemsOf rows id ++ items))
      (hothers : OtherRows written id) :
      Commit rows written (.createOrder subject payload)
  | updateOrder {subject id payload} (user : User) (order assigned : Order)
      (items : List OrderItem)
      (hacts : Acts rows subject [.user, .admin] user)
      (hrow : rows.lookup (.order id) = some order) (howner : MayChange user subject order)
      (huser : assigned.userID = order.userID) (hstatus : assigned.status = order.status)
      (hpromo : assigned.promoCodeID = order.promoCodeID ∨ assigned.promoCodeID = none)
      (hpriced : Priced rows (items.map OrderItem.line))
      (hbilled : Billed rows (linesTotal (items.map OrderItem.line)) assigned)
      (horder : (written.lookup (.order id)).or (some order) =
        some (assignOrder order assigned order))
      (hitems : written.lookup (.items id) = some ((itemsOf rows id ++ items).filter
        fun item => decide (item.id ∉ (itemsOf rows id).map OrderItem.id)))
      (hnew : ∀ item ∈ items, item.id ∉ (itemsOf rows id).map OrderItem.id)
      (hothers : OtherRows written id) :
      Commit rows written (.updateOrder subject id payload)
  | cancelOrder {subject id} (user : User) (order : Order)
      (hacts : Acts rows subject [.user, .admin] user)
      (hrow : rows.lookup (.order id) = some order) (howner : MayChange user subject order)
      (hactive : order.status.isActive = true)
      (horder : (written.lookup (.order id)).or (some order) =
        some (assignOrder order { order with status := .canceled } order))
      (hitems : written.lookup (.items id) = none)
      (hothers : OtherRows written id) :
      Commit rows written (.cancelOrder subject id)

/-- An update is refused with `PROMO_CODE_INVALID` only when the promo code of
    the order is inactive, or not valid at a time that the clock has shown. -/
def Refused (shown : Set Int) (rows : Rows) (request : Request) (error : HandlerError) : Prop :=
  error = .api .promoCodeInvalid → ∀ subject id payload o q promo,
    request = .updateOrder subject id payload → rows.lookup (.order id) = some o →
    o.promoCodeID = some q → rows.lookup (.promo q) = some promo →
    promo.active = false ∨ ∃ now ∈ shown, ¬ (promo.validFrom ≤ now ∧ now ≤ promo.validUntil)

theorem refused_of_ne {shown : Set Int} {rows : Rows} {request : Request} {error : HandlerError}
    (h : error ≠ .api .promoCodeInvalid) : Refused shown rows request error :=
  fun heq => absurd heq h

/-! ## The discipline -/

/-- The clock shows only times in `shown`, and a request that commits has checked
    what it commits. -/
def turns (shown : Set Int) : Discipline Statement HandlerError Response Request State where
  inv s := s.clock ∈ shown ∧ s.db.Consistent codeIndex
  rely _ _ s s' := s'.db = s.db
  guarantee _ i s s' := ∀ j, i ≠ j → s'.db.pending j = s.db.pending j
  unused i s := s.db.pending i = ∅
  compatible _ _ := True
  permitted _ _ _ _ := True
  known request i op s := op = .commit → Commit s.db.rows (s.db.pending i) request
  answer request _ result s :=
    ∀ error, result = .error error → Refused shown s.db.rows request error

/-- Session `i` runs on the committed rows `rows` and has written `written`. -/
structure On (i : Nat) (rows written : Rows) (s : State) : Prop where
  rows : s.db.rows = rows
  pending : s.db.pending i = written

variable {shown : Set Int} {settings : Settings} {request : Request} {i : Nat} {α β : Type}
  {rows written : Rows} {s s' : State} {generated : List Uuid}

theorem On.view (h : On i rows written s) : s.db.view i = written ∪ rows := by
  rw [RowStore.view, h.pending, h.rows]

theorem stable_on (rows written : Rows) :
    (turns shown).Stable request i (On i rows written) := by
  intro s s' _ (hdb : s'.db = s.db) hon
  exact ⟨by rw [hdb, hon.rows], by rw [hdb, hon.pending]⟩

/-- What is known when a program has ended. -/
def Ends (shown : Set Int) (request : Request) (post : α → State → Prop) :
    Except HandlerError α → State → Prop
  | .ok value, s => post value s
  | .error error, s => Refused shown s.db.rows request error

/-- A handler's program establishes `post` unless it raises an error. -/
abbrev Turn (shown : Set Int) (settings : Settings) (request : Request) (i : Nat)
    (pre : State → Prop) (program : Handler α) (post : α → State → Prop) : Prop :=
  (turns shown).Triple (service settings) request i pre program (Ends shown request post)

theorem turn_ret {pre : State → Prop} {value : α} {post : α → State → Prop}
    (h : ∀ s, pre s → post value s) : Turn shown settings request i pre (.ret value) post :=
  Discipline.Triple.ret fun s _ hpre => h s hpre

theorem turn_fail {pre : State → Prop} {error : HandlerError} {post : α → State → Prop}
    (h : error ≠ .api .promoCodeInvalid) :
    Turn shown settings request i pre (.fail error) post :=
  Discipline.Triple.fail fun _ _ _ => refused_of_ne h

theorem turn_bind {pre : State → Prop} {program : Handler α} {next : α → Handler β}
    (middle : α → State → Prop) {post : β → State → Prop}
    (h : Turn shown settings request i pre program middle)
    (hnext : ∀ value, Turn shown settings request i (middle value) (next value) post) :
    Turn shown settings request i pre (program >>= next) post :=
  Discipline.Triple.bind (Ends shown request middle) h hnext fun _ _ _ h => h

theorem turn_raiseIf {pre : State → Prop} {failed : Bool} {error : HandlerError}
    {next : Unit → Handler α} {post : α → State → Prop}
    (herror : error ≠ .api .promoCodeInvalid)
    (h : failed = false → Turn shown settings request i pre (next ()) post) :
    Turn shown settings request i pre (Program.raiseIf failed error >>= next) post :=
  Discipline.Triple.raiseIf (fun _ _ _ _ => refused_of_ne herror) h

theorem turn_require {pre : State → Prop} {error : ApiError} {row : Option α}
    {next : α → Handler β} {post : β → State → Prop}
    (hnone : row = none → ∀ s, pre s → Refused shown s.db.rows request (.api error))
    (h : ∀ value, row = some value → Turn shown settings request i pre (next value) post) :
    Turn shown settings request i pre (require error row >>= next) post := by
  cases row with
  | some value => exact h value rfl
  | none => exact Discipline.Triple.fail fun s _ hpre => hnone rfl s hpre

theorem turn_returnApi {pre : State → Prop} {result : Except ApiError α}
    {next : α → Handler β} {post : β → State → Prop}
    (herror : ∀ error, result = .error error →
      ∀ s, pre s → Refused shown s.db.rows request (.api error))
    (h : ∀ value, result = .ok value → Turn shown settings request i pre (next value) post) :
    Turn shown settings request i pre (returnApi result >>= next) post := by
  cases result with
  | ok value => exact h value rfl
  | error error => exact Discipline.Triple.fail fun s _ hpre => herror error rfl s hpre

/-- A statement other than the commit. -/
theorem turn_query {statement : Statement} {middle : Result statement → State → Prop}
    (hcommit : statement ≠ .commit)
    (h : ∀ s generated result s', s.clock ∈ shown → On i rows written s →
      proceed i generated s statement = some (.ok result, s') → middle result s') :
    Turn shown settings request i (On i rows written) (query statement) middle := by
  apply Discipline.Triple.step (OnResult middle) (stable_on rows written)
  · intro s hinv hon
    refine ⟨fun heq => absurd heq hcommit, fun _ choice answer s' hrun => ?_⟩
    cases choice with
    | failure =>
        obtain ⟨rfl, rfl⟩ := execute_failure (i := i) hrun
        exact ⟨hinv, fun _ _ => rfl, trivial⟩
    | proceed generated =>
        have hproceed : proceed i generated s statement = some (answer, s') := hrun
        have hreach := proceed_reach hcommit hproceed
        refine ⟨⟨?_, hreach.access.consistent hinv.2⟩, fun j hij => ?_, ?_⟩
        · rw [hreach.clock]
          exact hinv.1
        · exact (hreach.access.keeps hij).pending
        · cases answer with
          | ok result => exact h s generated result s' hinv.1 hon hproceed
          | error error => trivial
  · intro answer
    cases answer with
    | ok result => exact turn_ret fun _ h => h
    | error error => exact turn_fail (by simp)

/-- The commit of what the handler has written. -/
theorem turn_commit (h : Commit rows written request) :
    Turn shown settings request i (On i rows written) (query .commit)
      fun _ => On i (written ∪ rows) ∅ := by
  apply Discipline.Triple.step (OnResult fun _ => On i (written ∪ rows) ∅)
    (stable_on rows written)
  · intro s hinv hon
    refine ⟨fun _ => ?_, fun _ choice answer s' hrun => ?_⟩
    · rw [hon.rows, hon.pending]
      exact h
    · cases choice with
      | failure =>
          obtain ⟨rfl, rfl⟩ := execute_failure (i := i) hrun
          exact ⟨hinv, fun _ _ => rfl, trivial⟩
      | proceed generated =>
          have hproceed : proceed i generated s .commit = some (answer, s') := hrun
          obtain ⟨rfl, rfl⟩ := answerLoaded_eq hproceed
          refine ⟨⟨hinv.1, RowStore.commit_consistent i hinv.2⟩, fun j hij => ?_, ?_⟩
          · exact (RowStore.commit_keeps hij hinv.2).pending
          · refine ⟨?_, (RowStore.finish_idle _ _ _).pending⟩
            show s.db.pending i ∪ s.db.rows = written ∪ rows
            rw [hon.pending, hon.rows]
  · intro answer
    cases answer with
    | ok result => exact turn_ret fun _ h => h
    | error error => exact turn_fail (by simp)

/-! ## The statements -/

/-- What a `SELECT` answers over the rows that the transaction sees. -/
def answerOf (seen : Rows) : (statement : Statement) → Option (Result statement)
  | .selectUser id => some (seen.lookup (.user id))
  | .selectLastOperation userID operationType => some (lastOperation seen userID operationType)
  | .selectActiveOrder userID => some (activeOrder seen userID)
  | .selectProductsForUpdate ids => some (productMap seen ids)
  | .selectProduct id => some (seen.lookup (.product id))
  | .selectPromoByCode code => some (promoByCode seen code)
  | .selectPromo id => some (seen.lookup (.promo id))
  | .selectOrder id => some (seen.lookup (.order id))
  | .selectItems orderID => some (itemsOf seen orderID)
  | .refreshOrder id => some (seen.lookup (.order id))
  | .refreshProduct id => some (seen.lookup (.product id))
  | .refreshPromo id => some (seen.lookup (.promo id))
  | _ => none

/-- A `SELECT` of a session that has written nothing reads the committed rows. -/
theorem turn_read {statement : Statement} {value : Result statement}
    (hvalue : answerOf rows statement = some value) :
    Turn shown settings request i (On i rows ∅) (query statement) fun result s =>
      result = value ∧ On i rows ∅ s := by
  apply turn_query
  · rintro rfl
    cases hvalue
  · intro s generated result s' _ hon hrun
    have hview : s.db.view i = rows := by rw [hon.view, AList.empty_union]
    have hsame : ∀ {value' : Result statement} {db : Db}, answerOf rows statement = some value' →
        (.ok result : Answer statement) = .ok value' → db.rows = s.db.rows →
        db.pending = s.db.pending → s'.db = db → result = value ∧ On i rows ∅ s' := by
      rintro value' db hvalue' heq hrows hpending rfl
      rw [hvalue, Option.some.injEq] at hvalue'
      refine ⟨(Except.ok.inj heq).trans hvalue'.symm, by rw [hrows, hon.rows], ?_⟩
      rw [hpending, hon.pending]
    cases statement with
    | selectProductsForUpdate ids =>
        obtain ⟨db, hlock, hanswer, rfl⟩ := answerDb_eq hrun
        exact hsame (hview ▸ rfl) hanswer (RowStore.lockAll_rows hlock)
          (RowStore.lockAll_pending hlock) rfl
    | selectUser id =>
        obtain ⟨hanswer, rfl⟩ := answerLoaded_eq hrun
        exact hsame (hview ▸ rfl) hanswer rfl rfl rfl
    | selectPromoByCode code =>
        obtain ⟨hanswer, rfl⟩ := answerLoaded_eq hrun
        exact hsame (hview ▸ rfl) hanswer rfl rfl rfl
    | selectPromo id =>
        obtain ⟨hanswer, rfl⟩ := answerLoaded_eq hrun
        exact hsame (hview ▸ rfl) hanswer rfl rfl rfl
    | selectOrder id =>
        obtain ⟨hanswer, rfl⟩ := answerLoaded_eq hrun
        exact hsame (hview ▸ rfl) hanswer rfl rfl rfl
    | selectItems id =>
        obtain ⟨hanswer, rfl⟩ := answerLoaded_eq hrun
        exact hsame (hview ▸ rfl) hanswer rfl rfl rfl
    | selectLastOperation userID operationType =>
        obtain ⟨hanswer, rfl⟩ := answerRead_eq hrun
        exact hsame (hview ▸ rfl) hanswer rfl rfl rfl
    | selectActiveOrder userID =>
        obtain ⟨hanswer, rfl⟩ := answerRead_eq hrun
        exact hsame (hview ▸ rfl) hanswer rfl rfl rfl
    | selectProduct id =>
        obtain ⟨hanswer, rfl⟩ := answerRead_eq hrun
        exact hsame (hview ▸ rfl) hanswer rfl rfl rfl
    | refreshOrder id =>
        obtain ⟨hanswer, rfl⟩ := answerRead_eq hrun
        exact hsame (hview ▸ rfl) hanswer rfl rfl rfl
    | refreshProduct id =>
        obtain ⟨hanswer, rfl⟩ := answerRead_eq hrun
        exact hsame (hview ▸ rfl) hanswer rfl rfl rfl
    | refreshPromo id =>
        obtain ⟨hanswer, rfl⟩ := answerRead_eq hrun
        exact hsame (hview ▸ rfl) hanswer rfl rfl rfl
    | _ => cases hvalue

theorem turn_now :
    Turn shown settings request i (On i rows written) (query .now) fun now s =>
      now ∈ shown ∧ On i rows written s := by
  apply turn_query (by simp)
  intro s generated result s' hclock hon hrun
  obtain ⟨hanswer, rfl⟩ := answerRead_eq hrun
  cases hanswer
  exact ⟨hclock, hon⟩

/-- What an `UPDATE` of one row does. -/
theorem update_outcomes {k : Key} {set : Row k → Row k} {check : Row k → Bool}
    {result : RowStore.Written (Row k)} {db : Db} (hon : On i rows written s)
    (h : s.db.update i k set check = some (result, db)) :
    ((written ∪ rows).lookup k = none ∧ result = .missing) ∨
      ∃ row, (written ∪ rows).lookup k = some row ∧
        ((check (set row) = false ∧ result = .rejected) ∨
          (db.rows = rows ∧ db.pending i = written.insert k (set row))) := by
  rcases RowStore.update_cases h with
    ⟨hread, rfl, _⟩ | ⟨row, db₁, hread, hacquire, ⟨hcheck, rfl, _⟩ | ⟨_, rfl, rfl⟩⟩
  · rw [RowStore.read, hon.view] at hread
    exact Or.inl ⟨hread, rfl⟩
  · rw [RowStore.read, hon.view] at hread
    exact Or.inr ⟨row, hread, Or.inl ⟨hcheck, rfl⟩⟩
  · obtain ⟨hrows, hpending, _, _⟩ := RowStore.acquire_spec hacquire
    rw [RowStore.read, hon.view] at hread
    refine Or.inr ⟨row, hread, Or.inr ⟨?_, ?_⟩⟩
    · rw [RowStore.put_rows, hrows, hon.rows]
    · rw [RowStore.put_pending, hpending, hon.pending]

/-- The statements that update one row. -/
theorem turn_update {statement : Statement} (k : Key) (set : Row k → Row k)
    (check : Row k → Bool) (hcommit : statement ≠ .commit)
    (h : ∀ s generated result s', proceed i generated s statement = some (.ok result, s') →
      answerUpdate s (s.db.update i k set check) = some (.ok (), s')) :
    Turn shown settings request i (On i rows written) (query statement) fun _ s =>
      ∃ row, (written ∪ rows).lookup k = some row ∧ On i rows (written.insert k (set row)) s := by
  apply turn_query hcommit
  intro s generated result s' _ hon hrun
  obtain ⟨updated, db, hupdate, hanswer, rfl⟩ := answerUpdate_eq (h s generated result s' hrun)
  rcases update_outcomes hon hupdate with
    ⟨_, rfl⟩ | ⟨row, hrow, ⟨_, rfl⟩ | ⟨hrows, hpending⟩⟩
  · cases hanswer
  · cases hanswer
  · exact ⟨row, hrow, hrows, hpending⟩

/-- An `INSERT` of one row. -/
theorem insertRow_written {k : Key} {row : Row k} {db : Db} (hon : On i rows written s)
    (h : s.db.insertRow i k row = some db) :
    k ∉ rows ∧ db.rows = rows ∧ db.pending i = written.insert k row := by
  obtain ⟨db₁, hfresh, _, hacquire, rfl⟩ := RowStore.insertRow_cases h
  obtain ⟨hrows, hpending, _, _⟩ := RowStore.acquire_spec hacquire
  rw [hon.rows] at hfresh
  refine ⟨hfresh, ?_, ?_⟩
  · rw [RowStore.put_rows, hrows, hon.rows]
  · rw [RowStore.put_pending, hpending, hon.pending]

theorem turn_insertOrder (order : Order) :
    Turn shown settings request i (On i rows written) (query (.insertOrder order)) fun id s =>
      .order id ∉ rows ∧ On i rows (written.insert (.order id) order.stored) s := by
  apply turn_query (by simp)
  intro s generated result s' _ hon hrun
  simp only [proceed] at hrun
  split at hrun
  · obtain ⟨id, _, hinsert⟩ := Option.bind_eq_some_iff.mp hrun
    obtain ⟨db, hdb, hanswer, rfl⟩ := answerDb_eq hinsert
    cases hanswer
    obtain ⟨hfresh, hrows, hpending⟩ := insertRow_written hon hdb
    exact ⟨hfresh, hrows, hpending⟩
  · cases hrun

theorem turn_insertProduct (product : Product) :
    Turn shown settings request i (On i rows written) (query (.insertProduct product)) fun id s =>
      .product id ∉ rows ∧ On i rows (written.insert (.product id) product.stored) s := by
  apply turn_query (by simp)
  intro s generated result s' _ hon hrun
  simp only [proceed] at hrun
  split at hrun
  · obtain ⟨id, _, hinsert⟩ := Option.bind_eq_some_iff.mp hrun
    obtain ⟨db, hdb, hanswer, rfl⟩ := answerDb_eq hinsert
    cases hanswer
    obtain ⟨hfresh, hrows, hpending⟩ := insertRow_written hon hdb
    exact ⟨hfresh, hrows, hpending⟩
  · cases hrun

theorem turn_insertPromo (promo : PromoCode) :
    Turn shown settings request i (On i rows written) (query (.insertPromo promo)) fun id s =>
      .promo id ∉ rows ∧ On i rows (written.insert (.promo id) promo.stored) s := by
  apply turn_query (by simp)
  intro s generated result s' _ hon hrun
  simp only [proceed] at hrun
  split at hrun
  · obtain ⟨id, _, hinsert⟩ := Option.bind_eq_some_iff.mp hrun
    obtain ⟨⟨result', db⟩, hdb, heq⟩ := Option.map_eq_some_iff.mp hinsert
    simp only [Prod.mk.injEq] at heq
    obtain ⟨hanswer, rfl⟩ := heq
    rcases RowStore.insert_cases hdb with
      ⟨rfl, _, _⟩ | ⟨db₁, db₂, hfresh, _, _, hu, hk, rfl, rfl⟩
    · cases hanswer
    · obtain ⟨hrows₁, hpending₁, _, _⟩ := RowStore.acquire_spec hu
      obtain ⟨hrows₂, hpending₂, _, _⟩ := RowStore.acquire_spec hk
      cases hanswer
      rw [hon.rows] at hfresh
      refine ⟨hfresh, ?_, ?_⟩
      · rw [withDb_db, RowStore.put_rows, hrows₂, hrows₁, hon.rows]
      · rw [withDb_db, RowStore.put_pending, hpending₂, hpending₁, hon.pending]
  · cases hrun

theorem turn_insertOperation (userID : Uuid) (operationType : OperationType) :
    Turn shown settings request i (On i rows written)
      (query (.insertOperation userID operationType)) fun _ s =>
        ∃ id row, On i rows (written.insert (.operation id) row) s := by
  apply turn_query (by simp)
  intro s generated result s' _ hon hrun
  obtain ⟨id, _, hinsert⟩ := Option.bind_eq_some_iff.mp hrun
  obtain ⟨db, hdb, _, rfl⟩ := answerDb_eq hinsert
  obtain ⟨_, hrows, hpending⟩ := insertRow_written hon hdb
  exact ⟨id, _, hrows, hpending⟩

theorem newItems_line {ids : List Uuid} {lines : List ItemLine} (h : ids.length = lines.length) :
    (newItems ids lines).map OrderItem.line = lines := by
  rw [newItems, List.map_map]
  exact List.map_snd_zip (Nat.le_of_eq h.symm)

/-- The items of an order come after those it has. -/
theorem turn_insertItems (id : Uuid) (lines : List ItemLine) :
    Turn shown settings request i (On i rows written) (query (.insertItems id lines)) fun _ s =>
      ∃ items, items.map OrderItem.line = lines ∧
        (∀ item ∈ items, item.id ∉ (itemsOf (written ∪ rows) id).map OrderItem.id) ∧
        On i rows (written.insert (.items id) (itemsOf (written ∪ rows) id ++ items)) s := by
  apply turn_query (by simp)
  intro s generated result s' _ hon hrun
  simp only [proceed] at hrun
  split at hrun
  · rename_i hfresh
    obtain ⟨db, hdb, _, rfl⟩ := answerDb_eq hrun
    simp only [freshIDs, Bool.and_eq_true, decide_eq_true_eq, List.all_eq_true] at hfresh
    obtain ⟨⟨hlength, _⟩, hnew⟩ := hfresh
    unfold insertItems at hdb
    rw [hon.view] at hnew
    cases hread : s.db.read i (.items id) with
    | none =>
        simp only [hread] at hdb
        obtain ⟨_, hrows, hpending⟩ := insertRow_written hon hdb
        rw [RowStore.read, hon.view] at hread
        have hnone : itemsOf (written ∪ rows) id = [] := by rw [itemsOf, hread, Option.getD_none]
        rw [hnone]
        exact ⟨_, newItems_line hlength, fun _ _ => List.not_mem_nil, hrows, hpending⟩
    | some old =>
        simp only [hread] at hdb
        obtain ⟨⟨updated, db₁⟩, hupdate, rfl⟩ := Option.map_eq_some_iff.mp hdb
        rw [RowStore.read, hon.view] at hread
        rw [itemsOf_of_lookup hread]
        refine ⟨newItems generated lines, newItems_line hlength, fun item hitem hmem => ?_, ?_⟩
        · obtain ⟨item', hitem', heq⟩ := List.mem_map.mp hmem
          refine hnew item.id (newItems_ids hitem) ?_
          rw [← heq]
          exact mem_itemIDs hread hitem'
        · rcases update_outcomes hon hupdate with
            ⟨hnone, _⟩ | ⟨row, hrow, ⟨hcheck, _⟩ | ⟨hrows, hpending⟩⟩
          · rw [hread] at hnone
            cases hnone
          · cases hcheck
          · rw [hread, Option.some.injEq] at hrow
            subst hrow
            exact ⟨hrows, hpending⟩
  · cases hrun

theorem turn_deleteItems (id : Uuid) (ids : List Uuid) {items : List OrderItem}
    (hitems : written.lookup (.items id) = some items) :
    Turn shown settings request i (On i rows written) (query (.deleteItems id ids)) fun _ =>
      On i rows (written.insert (.items id)
        (items.filter fun item => decide (item.id ∉ ids))) := by
  apply turn_query (by simp)
  intro s generated result s' _ hon hrun
  obtain ⟨db, hdb, _, rfl⟩ := answerDb_eq hrun
  obtain ⟨⟨updated, db₁⟩, hupdate, rfl⟩ := Option.map_eq_some_iff.mp hdb
  have hseen : (written ∪ rows).lookup (.items id) = some items := by
    rw [AList.lookup_union_left (mem_of_lookup hitems), hitems]
  rcases update_outcomes hon hupdate with
    ⟨hnone, _⟩ | ⟨row, hrow, ⟨hcheck, _⟩ | ⟨hrows, hpending⟩⟩
  · rw [hseen] at hnone
    cases hnone
  · cases hcheck
  · rw [hseen, Option.some.injEq] at hrow
    subst hrow
    exact ⟨hrows, hpending⟩

end SoaHomework.Marketplace

import SoaHomework.LoneTransaction
import SoaHomework.MarketTurns
import SoaHomework.ProductUpdates

/-!
# Requests with the database to themselves

A request that runs with no other waits for nothing, and what its statements
answer and do depends on two tables only, the committed rows and those that it has
written (`Draft.effect`). `serve_eq` runs a request on these.
-/

namespace SoaHomework.Marketplace

open StatementProgram

/-- What a request takes from the clock and from `uuid4()`. -/
structure Draw where
  clock : Int
  /-- The key of the order, product or promo code that the request inserts. -/
  id : Uuid
  operationID : Uuid
  itemIDs : List Uuid

def Draw.choice (draw : Draw) : Statement → Choice
  | .insertOrder _ => .proceed [draw.id]
  | .insertProduct _ => .proceed [draw.id]
  | .insertPromo _ => .proceed [draw.id]
  | .insertOperation _ _ => .proceed [draw.operationID]
  | .insertItems _ _ => .proceed draw.itemIDs
  | statement => send statement

abbrev executeDrawn (draw : Draw) (statement : Statement) (s : State) :
    Option (Answer statement × State) :=
  execute 0 statement (draw.choice statement) s

/-- The answer to a request that runs with no other on the committed rows, and the
    rows that it commits. -/
def Request.serve (settings : Settings) (draw : Draw) (request : Request) (rows : Rows) :
    Option (Except HandlerError Response × Rows) :=
  ((handle settings request).alone (executeDrawn draw)
    { State.ofRows rows with clock := draw.clock }).map fun (result, s) => (result, s.db.rows)

/-! ## Draft -/

/-- The committed rows and those that the request has written over them. -/
structure Draft where
  rows : Rows
  written : Rows

namespace Draft

def seen (t : Draft) : Rows := t.written ∪ t.rows

def put (t : Draft) (k : Key) (row : Row k) : Draft :=
  { t with written := t.written.insert k row }

def update (t : Draft) (k : Key) (set : Row k → Row k) (check : Row k → Bool) :
    Except DbError Unit × Draft :=
  match t.seen.lookup k with
  | none => (.error .noRows, t)
  | some row => if check (set row) then (.ok (), t.put k (set row)) else (.error .outOfRange, t)

def insert (t : Draft) (k : Key) (row : Row k) : Option Draft :=
  if k ∈ t.seen then none else some (t.put k row)

/-- What a statement of a request answers and does. -/
def effect (draw : Draw) (t : Draft) :
    (statement : Statement) → Option (Answer statement × Draft)
  | .now => some (.ok draw.clock, t)
  | .updateStock id stock =>
      some (t.update (.product id) (fun p : Product => { p with stock := stock }) Product.fits)
  | .updateUses id uses =>
      some (t.update (.promo id) (fun p : PromoCode => { p with currentUses := uses })
        PromoCode.fits)
  | .insertOrder order =>
      if order.fits then (t.insert (.order draw.id) order.stored).map fun t => (.ok draw.id, t)
      else some (.error .outOfRange, t)
  | .updateOrder id change =>
      some (t.update (.order id) (fun o : Order => (change.apply o).stored) Order.fits)
  | .insertItems orderID lines =>
      if freshIDs t.seen draw.itemIDs lines then
        some (.ok (), t.put (.items orderID)
          (itemsOf t.seen orderID ++ newItems draw.itemIDs lines))
      else none
  | .deleteItems orderID ids =>
      some (.ok (), (t.update (.items orderID)
        (fun items : List OrderItem => items.filter fun item => decide (item.id ∉ ids))
        fun _ => true).2)
  | .insertOperation userID operationType =>
      (t.insert (.operation draw.operationID) ⟨userID, operationType, draw.clock⟩).map
        fun t => (.ok (), t)
  | .insertProduct product =>
      if product.fits then
        (t.insert (.product draw.id) product.stored).map fun t => (.ok draw.id, t)
      else some (.error .outOfRange, t)
  | .updateProduct id change =>
      if change.sendable then
        if change.violatesNotNull then some (.error .notNullViolation, t)
        else some (t.update (.product id) (fun p : Product => (change.apply p).stored) Product.fits)
      else some (.error .failure, t)
  | .insertPromo promo =>
      if promo.fits then
        if .promo draw.id ∈ t.seen then none
        else if t.seen.entries.any fun entry => codeIndex entry.1 entry.2 == some promo.code then
          some (.error .uniqueViolation, t)
        else some (.ok draw.id, t.put (.promo draw.id) promo.stored)
      else some (.error .outOfRange, t)
  | .commit => some (.ok (), ⟨t.seen, ∅⟩)
  | statement => (answerOf t.seen statement).map fun value => (.ok value, t)

end Draft

theorem Draft.seen_put (t : Draft) (k : Key) (row : Row k) :
    (t.put k row).seen = t.seen.insert k row := AList.insert_union.symm

theorem Draft.seen_of_written (t : Draft) : (⟨t.seen, ∅⟩ : Draft).seen = t.seen :=
  AList.empty_union

theorem Draft.lookup_put_self (t : Draft) (k : Key) (row : Row k) :
    (t.put k row).seen.lookup k = some row := by
  rw [Draft.seen_put]
  exact AList.lookup_insert _

theorem Draft.lookup_put_of_ne (t : Draft) {k k' : Key} (h : k' ≠ k) {row : Row k} :
    (t.put k row).seen.lookup k' = t.seen.lookup k' := by
  rw [Draft.seen_put, AList.lookup_insert_ne h]

/-- The session has the database to itself, and the clock stands still. -/
structure Solo (draw : Draw) (s : State) (t : Draft) : Prop where
  lone : s.db.Lone 0 t.rows t.written
  clock : s.clock = draw.clock
  began : (s.sessions 0).began.getD s.clock = draw.clock

section Statements

variable {draw : Draw} {s : State} {t : Draft}

/-- The statement answers and does the same in the database and on the tables. -/
abbrev Agrees (draw : Draw) {α : Type} (x : Option (α × State)) (y : Option (α × Draft)) :
    Prop :=
  Option.Rel (fun x y => x.1 = y.1 ∧ Solo draw x.2 y.2) x y

theorem Solo.withDb (h : Solo draw s t) {db : Db} {t' : Draft}
    (hlone : db.Lone 0 t'.rows t'.written) : Solo draw (s.withDb db) t' :=
  ⟨hlone, h.clock, h.began⟩

theorem Solo.withSession (h : Solo draw s t) {session : Session}
    (hbegan : session.began.getD s.clock = draw.clock) : Solo draw (s.withSession 0 session) t :=
  ⟨h.lone, h.clock, by simpa [State.withSession] using hbegan⟩

theorem Solo.read (h : Solo draw s t) (k : Key) : s.db.read 0 k = t.seen.lookup k := by
  rw [RowStore.read, h.lone.view, Draft.seen]

theorem Solo.update (h : Solo draw s t) (k : Key) (set : Row k → Row k) (check : Row k → Bool) :
    Agrees draw (answerUpdate s (s.db.update 0 k set check)) (some (t.update k set check)) := by
  rw [answerUpdate, Draft.update]
  cases hrow : t.seen.lookup k with
  | none =>
      rw [h.lone.update_missing hrow]
      exact .some ⟨rfl, h.withDb h.lone⟩
  | some row =>
      obtain ⟨db, hupdate, hlone⟩ := h.lone.update hrow set check
      rw [hupdate, Option.map_some]
      simp only
      cases hcheck : check (set row) with
      | false =>
          rw [hcheck] at hlone
          exact .some ⟨rfl, h.withDb hlone⟩
      | true =>
          rw [hcheck] at hlone
          exact .some ⟨rfl, h.withDb hlone⟩

theorem Solo.insert (h : Solo draw s t) (k : Key) (row : Row k) {α : Type} (value : α) :
    Agrees draw (answerDb s value (s.db.insertRow 0 k row))
      ((t.insert k row).map fun t => ((.ok value : Except DbError α), t)) := by
  rw [answerDb, Draft.insert]
  by_cases hk : k ∈ t.seen
  · rw [h.lone.insertRow_taken hk, if_pos hk]
    exact .none
  · obtain ⟨db, hinsert, hlone⟩ := h.lone.insertRow hk row
    rw [hinsert, if_neg hk]
    exact .some ⟨rfl, h.withDb hlone⟩

theorem Solo.insertItems (h : Solo draw s t) (orderID : Uuid) (items : List OrderItem) :
    Agrees draw (answerDb s () (insertItems s.db 0 orderID items))
      (some ((.ok () : Except DbError Unit),
        t.put (.items orderID) (itemsOf t.seen orderID ++ items))) := by
  rw [Marketplace.insertItems, h.read, itemsOf]
  cases hrow : t.seen.lookup (.items orderID) with
  | none =>
      have hk : .items orderID ∉ t.seen := AList.lookup_eq_none.mp hrow
      obtain ⟨db, hinsert, hlone⟩ := h.lone.insertRow hk items
      simp only [hinsert]
      exact .some ⟨rfl, h.withDb hlone⟩
  | some old =>
      obtain ⟨db, hupdate, hlone⟩ := h.lone.update hrow
        (fun old : List OrderItem => old ++ items) fun _ => true
      simp only [hupdate]
      exact .some ⟨rfl, h.withDb hlone⟩

theorem Solo.deleteItems (h : Solo draw s t) (orderID : Uuid)
    (set : List OrderItem → List OrderItem) :
    Agrees draw (answerDb s () ((s.db.update 0 (.items orderID) set fun _ => true).map Prod.snd))
      (some ((.ok () : Except DbError Unit), (t.update (.items orderID) set fun _ => true).2)) := by
  rw [Draft.update]
  cases hrow : t.seen.lookup (.items orderID) with
  | none =>
      rw [h.lone.update_missing hrow]
      exact .some ⟨rfl, h.withDb h.lone⟩
  | some items =>
      obtain ⟨db, hupdate, hlone⟩ := h.lone.update hrow set fun _ => true
      rw [hupdate]
      exact .some ⟨rfl, h.withDb hlone⟩

theorem Solo.insertPromo (h : Solo draw s t) (promo : PromoCode) (id : Uuid) :
    Agrees draw
      ((s.db.insert codeIndex 0 (.promo id) promo.code promo.stored).map fun written =>
        (answerInserted id written.1, s.withDb written.2))
      (if .promo id ∈ t.seen then none
        else if t.seen.entries.any fun entry => codeIndex entry.1 entry.2 == some promo.code then
          some (.error .uniqueViolation, t)
        else some (.ok id, t.put (.promo id) promo.stored)) := by
  by_cases hk : .promo id ∈ t.seen
  · rw [h.lone.insert_taken hk, if_pos hk]
    exact .none
  · obtain ⟨db, hinsert, hlone⟩ := h.lone.insert codeIndex hk promo.code promo.stored
    rw [hinsert, if_neg hk]
    change Agrees draw _ (if (t.written ∪ t.rows).entries.any _ then _ else _)
    cases hany : (t.written ∪ t.rows).entries.any fun entry =>
        codeIndex entry.1 entry.2 == some promo.code with
    | true =>
        rw [hany] at hlone
        exact .some ⟨rfl, h.withDb hlone⟩
    | false =>
        rw [hany] at hlone
        exact .some ⟨rfl, h.withDb hlone⟩

/-- Every statement does in the database what it does on the tables. -/
theorem Solo.execute (h : Solo draw s t) (statement : Statement) :
    Agrees draw (executeDrawn draw statement s) (t.effect draw statement) := by
  have hview : s.db.view 0 = t.seen := h.lone.view
  cases statement with
  | now => exact .some ⟨congrArg Except.ok h.clock, h⟩
  | updateStock id stock => exact h.update _ _ _
  | updateUses id uses => exact h.update _ _ _
  | updateOrder id change => exact h.update _ _ _
  | insertOrder order =>
      simp only [executeDrawn, Draw.choice, Marketplace.execute, proceed, Draft.effect]
      split
      · exact h.insert _ _ _
      · exact .some ⟨rfl, h⟩
  | insertProduct product =>
      simp only [executeDrawn, Draw.choice, Marketplace.execute, proceed, Draft.effect]
      split
      · exact h.insert _ _ _
      · exact .some ⟨rfl, h⟩
  | insertPromo promo =>
      simp only [executeDrawn, Draw.choice, Marketplace.execute, proceed, Draft.effect]
      split
      · exact h.insertPromo promo draw.id
      · exact .some ⟨rfl, h⟩
  | insertOperation userID operationType =>
      simp only [executeDrawn, Draw.choice, Marketplace.execute, proceed, Draft.effect, oneID,
        Option.bind_some, h.began]
      exact h.insert _ _ _
  | insertItems orderID lines =>
      simp only [executeDrawn, Draw.choice, Marketplace.execute, proceed, Draft.effect, hview]
      split
      · exact h.insertItems orderID _
      · exact .none
  | deleteItems orderID ids => exact h.deleteItems orderID _
  | updateProduct id change =>
      simp only [executeDrawn, Draw.choice, send, Draft.effect]
      by_cases hsendable : change.sendable = true
      · simp only [hsendable, if_true, Marketplace.execute, proceed]
        split
        · exact .some ⟨rfl, h⟩
        · exact h.update _ _ _
      · simp only [hsendable]
        exact .some ⟨rfl, h⟩
  | commit =>
      refine .some ⟨rfl, ?_⟩
      apply Solo.withSession
      · exact h.withDb h.lone.commit
      · exact h.clock
  | selectProductsForUpdate ids =>
      obtain ⟨db, hlock, hlone⟩ := h.lone.lockAll (ids.map .product)
      simp only [executeDrawn, Draw.choice, send, Marketplace.execute, proceed, hlock, hview]
      exact .some ⟨rfl, h.withDb hlone⟩
  | selectUser id =>
      refine .some ⟨congrArg Except.ok (h.read _), h.withSession ?_⟩
      cases hbegan : (s.sessions 0).began with
      | none => exact h.clock
      | some began =>
          have := h.began
          rwa [hbegan] at this
  | selectPromoByCode code =>
      exact .some ⟨congrArg (fun seen => Except.ok (promoByCode seen code)) hview,
        h.withSession h.began⟩
  | selectPromo id => exact .some ⟨congrArg Except.ok (h.read _), h.withSession h.began⟩
  | selectOrder id => exact .some ⟨congrArg Except.ok (h.read _), h.withSession h.began⟩
  | selectItems orderID =>
      exact .some ⟨congrArg (fun seen => Except.ok (itemsOf seen orderID)) hview,
        h.withSession h.began⟩
  | selectLastOperation userID operationType =>
      exact .some ⟨congrArg (fun seen => Except.ok (lastOperation seen userID operationType)) hview,
        h⟩
  | selectActiveOrder userID =>
      exact .some ⟨congrArg (fun seen => Except.ok (activeOrder seen userID)) hview, h⟩
  | selectProduct id => exact .some ⟨congrArg Except.ok (h.read _), h⟩
  | refreshOrder id => exact .some ⟨congrArg Except.ok (h.read _), h⟩
  | refreshProduct id => exact .some ⟨congrArg Except.ok (h.read _), h⟩
  | refreshPromo id => exact .some ⟨congrArg Except.ok (h.read _), h⟩

end Statements

/-- A statement on the tables. -/
abbrev onDraft (draw : Draw) (statement : Statement) (t : Draft) :
    Option (Answer statement × Draft) :=
  t.effect draw statement

/-- A `SELECT` reads what the request sees. -/
theorem effect_read {draw : Draw} {t : Draft} {statement : Statement} {value : Result statement}
    (h : answerOf t.seen statement = some value) :
    onDraft draw statement t = some (.ok value, t) := by
  have hread : ∀ {value' : Result statement}, answerOf t.seen statement = some value' →
      (some ((.ok value' : Answer statement), t) : Option _) = some (.ok value, t) := by
    intro value' h'
    rw [h, Option.some.injEq] at h'
    rw [h']
  cases statement with
  | selectUser id => exact hread rfl
  | selectLastOperation userID operationType => exact hread rfl
  | selectActiveOrder userID => exact hread rfl
  | selectProductsForUpdate ids => exact hread rfl
  | selectProduct id => exact hread rfl
  | selectPromoByCode code => exact hread rfl
  | selectPromo id => exact hread rfl
  | selectOrder id => exact hread rfl
  | selectItems orderID => exact hread rfl
  | refreshOrder id => exact hread rfl
  | refreshProduct id => exact hread rfl
  | refreshPromo id => exact hread rfl
  | _ => cases h

/-- A request runs on the tables as it does in the database. -/
theorem serve_eq (settings : Settings) (draw : Draw) (request : Request) (rows : Rows) :
    request.serve settings draw rows =
      ((handle settings request).alone (onDraft draw) ⟨rows, ∅⟩).map
        fun (result, t) => (result, t.rows) := by
  have hstart : Solo draw { State.ofRows rows with clock := draw.clock } ⟨rows, ∅⟩ :=
    ⟨RowStore.lone_ofRows rows 0, rfl, rfl⟩
  have hstep : ∀ statement s t, Solo draw s t →
      Agrees draw (executeDrawn draw statement s) (onDraft draw statement t) :=
    fun statement s t h => h.execute statement
  have hrel := Program.alone_rel hstep (handle settings request) hstart
  rw [Request.serve]
  generalize (handle settings request).alone (executeDrawn draw) _ = x at hrel ⊢
  generalize (handle settings request).alone (onDraft draw) _ = y at hrel ⊢
  cases hrel with
  | none => rfl
  | some hend =>
      simp only [Option.map_some, hend.left, hend.right.lone.rows]

end SoaHomework.Marketplace

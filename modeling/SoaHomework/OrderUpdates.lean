import SoaHomework.Placements

/-!
# What an update of an order does

An update of an order that keeps its promo code succeeds exactly when its checks pass,
the lines can be placed and the columns take what is written (`returns_updateOrder`).
It moves each stock by the difference of the old and the new lines (`Updated`).
-/

namespace SoaHomework.Marketplace

open StatementProgram

/-! ## Handlers that return -/

/-- The handler returns `value`. -/
def Returns (draw : Draw) {α : Type} (p : Handler α) (t : Draft) (value : α) (t' : Draft) :
    Prop :=
  p.alone (onDraft draw) t = some (.ok value, t')

section Rules

variable {draw : Draw} {α β : Type} {t t' : Draft}

theorem returns_bind {p : Handler α} {f : α → Handler β} {value : β} :
    Returns draw (p >>= f) t value t' ↔
      ∃ first t₁, Returns draw p t first t₁ ∧ Returns draw (f first) t₁ value t' :=
  Program.alone_bind_ok _

theorem returns_ret {value result : α} :
    Returns draw (.ret value) t result t' ↔ result = value ∧ t' = t := by
  rw [Returns, Program.alone_ret, Option.some.injEq, Prod.mk.injEq, Except.ok.injEq]
  exact and_congr eq_comm eq_comm

theorem not_returns_fail {error : HandlerError} {result : α} :
    ¬ Returns draw (.fail error) t result t' := by
  rw [Returns, Program.alone_fail]
  nofun

theorem returns_query {statement : Statement} {result : Result statement} :
    Returns draw (query statement) t result t' ↔
      onDraft draw statement t = some (.ok result, t') := by
  rw [Returns]
  have hquery : query statement = .step statement fun answer => returnError answer := rfl
  rw [hquery]
  cases hexec : onDraft draw statement t with
  | none => simp [Program.alone, hexec]
  | some executed =>
      obtain ⟨answer, t₁⟩ := executed
      rw [Program.alone_step _ hexec]
      cases answer with
      | ok value => simp [returnError]
      | error error => simp [returnError]

theorem returns_raiseIf {failed : Bool} {error : HandlerError} {result : Unit} :
    Returns draw (Program.raiseIf failed error) t result t' ↔ failed = false ∧ t' = t := by
  cases failed with
  | false => simp [Program.raiseIf, returns_ret]
  | true => simp [Program.raiseIf, not_returns_fail]

theorem returns_require {error : ApiError} {row : Option α} {result : α} :
    Returns draw (require error row) t result t' ↔ row = some result ∧ t' = t := by
  cases row with
  | none => simp [require, raise, not_returns_fail]
  | some value => simp [require, returns_ret, eq_comm]

theorem returns_returnApi {outcome : Except ApiError α} {result : α} :
    Returns draw (returnApi outcome) t result t' ↔ outcome = .ok result ∧ t' = t := by
  cases outcome with
  | ok value => simp [returnApi, returns_ret, eq_comm]
  | error error => simp [returnApi, raise, not_returns_fail]

/-- A `SELECT` of a handler. -/
theorem returns_read {statement : Statement} {value : Result statement}
    {next : Result statement → Handler β} {result : β}
    (h : answerOf t.seen statement = some value) :
    Returns draw (query statement >>= next) t result t' ↔
      Returns draw (next value) t result t' := by
  rw [Returns, alone_query (effect_read h), Returns]

theorem returns_now {next : Int → Handler β} {result : β} :
    Returns draw (query .now >>= next) t result t' ↔
      Returns draw (next draw.clock) t result t' := by
  have hnow : onDraft draw .now t = some (.ok draw.clock, t) := rfl
  rw [Returns, alone_query hnow, Returns]

end Rules

/-! ## The checks -/

/-- The user may act on the order. -/
structure Allowed (rows : Rows) (subject id : Uuid) (order : Order) : Prop where
  user : ∃ user : User, rows.lookup (.user subject) = some user ∧
    (user.role = .user ∨ user.role = .admin) ∧ (user.role = .admin ∨ order.userID = subject)
  order : rows.lookup (.order id) = some order

/-- The last operation of the user is not too recent. -/
def WithinLimit (settings : Settings) (rows : Rows) (clock : Int) (subject : Uuid)
    (operationType : OperationType) : Prop :=
  ∀ last, lastOperation rows subject operationType = some last →
    settings.orderRateLimitMinutes * 60000000 ≤ clock - last

section Checks

variable {draw : Draw} {t t' : Draft} {settings : Settings}

theorem returns_requireRoles {subject : Uuid} {user : User} :
    Returns draw (requireRoles [.user, .admin] subject) t user t' ↔
      t.seen.lookup (.user subject) = some user ∧ (user.role = .user ∨ user.role = .admin) ∧
        t' = t := by
  have hread : answerOf t.seen (.selectUser subject) =
      some (t.seen.lookup (.user subject)) := rfl
  change Returns draw (query (.selectUser subject) >>= _) t user t' ↔ _
  rw [returns_read hread, returns_bind]
  simp only [returns_require]
  constructor
  · rintro ⟨user', t₁, ⟨hrow, rfl⟩, hrest⟩
    split at hrest
    · rename_i hrole
      obtain ⟨rfl, rfl⟩ := returns_ret.mp hrest
      exact ⟨hrow, by simpa using hrole, rfl⟩
    · exact absurd hrest not_returns_fail
  · rintro ⟨hrow, hrole, rfl⟩
    refine ⟨user, t', ⟨hrow, rfl⟩, ?_⟩
    rw [if_pos (by simpa using hrole)]
    exact returns_ret.mpr ⟨rfl, rfl⟩

theorem returns_loadOrder {subject id : Uuid} {user : User} {order : Order} :
    Returns draw (loadOrder subject user id) t order t' ↔
      t.seen.lookup (.order id) = some order ∧
        (user.role = .admin ∨ order.userID = subject) ∧ t' = t := by
  have hread : answerOf t.seen (.selectOrder id) = some (t.seen.lookup (.order id)) := rfl
  change Returns draw (query (.selectOrder id) >>= _) t order t' ↔ _
  rw [returns_read hread, returns_bind]
  simp only [returns_require, returns_bind, returns_raiseIf, Program.pure_eq, returns_ret]
  constructor
  · rintro ⟨order', t₁, ⟨hrow, rfl⟩, _, t₂, ⟨howner, rfl⟩, rfl, rfl⟩
    rw [Bool.and_eq_false_iff, decide_eq_false_iff_not, decide_eq_false_iff_not, not_not,
      not_not] at howner
    exact ⟨hrow, howner, rfl⟩
  · rintro ⟨hrow, howner, rfl⟩
    refine ⟨order, t', ⟨hrow, rfl⟩, (), t', ⟨?_, rfl⟩, rfl, rfl⟩
    rcases howner with hadmin | hown
    · simp [hadmin]
    · simp [hown]

theorem returns_checkRateLimit {subject : Uuid} {operationType : OperationType} {result : Unit} :
    Returns draw (checkRateLimit settings subject operationType) t result t' ↔
      WithinLimit settings t.seen draw.clock subject operationType ∧ t' = t := by
  have hread : answerOf t.seen (.selectLastOperation subject operationType) =
      some (lastOperation t.seen subject operationType) := rfl
  change Returns draw (query (.selectLastOperation subject operationType) >>= _) t result t' ↔ _
  rw [returns_read hread, WithinLimit]
  cases lastOperation t.seen subject operationType with
  | none => simp [returns_ret]
  | some last =>
      change Returns draw (query .now >>= _) t result t' ↔ _
      rw [returns_now, returns_raiseIf, decide_eq_false_iff_not, Int.not_lt]
      simp

end Checks

/-! ## The writes -/

section Writes

variable {draw : Draw} {t t' : Draft} {α : Type}

theorem returns_flushStocks {changes : List (Uuid × Int)} (hnodup : (changes.map Prod.fst).Nodup)
    {result : Unit} :
    Returns draw (flushStocks changes) t result t' ↔
      Storable t.seen changes ∧ t' = t.putStocks changes := by
  rw [Returns]
  by_cases hflush : Storable t.seen changes
  · rw [alone_flushStocks hnodup hflush]
    simp [hflush, eq_comm]
  · obtain ⟨error, t₁, hfail, _⟩ := alone_flushStocks_error draw hnodup hflush
    rw [hfail]
    simp [hflush]

theorem apply_orderChange (loaded assigned : Order) (h : assigned.userID = loaded.userID) :
    (orderChange loaded assigned).apply loaded = assigned := by
  obtain ⟨user, status, promo, total, discount⟩ := loaded
  obtain ⟨user', status', promo', total', discount'⟩ := assigned
  simp only at h
  subst h
  simp only [OrderChange.apply, orderChange, Order.mk.injEq, true_and]
  refine ⟨?_, ?_, ?_, ?_⟩
  · split
    · simp_all
    · rfl
  · split
    · simp_all
    · rfl
  · split
    · simp_all
    · rfl
  · split
    · simp_all
    · rfl

/-- The order row after a flush. -/
def Draft.putOrder (t : Draft) (id : Uuid) (loaded assigned : Order) : Draft :=
  if assigned = loaded then t else t.put (.order id) assigned.stored

theorem returns_flushOrder {id : Uuid} {loaded assigned : Order}
    (hrow : t.seen.lookup (.order id) = some loaded) (huser : assigned.userID = loaded.userID)
    {result : Unit} :
    Returns draw (flushOrder id loaded assigned) t result t' ↔
      (assigned = loaded ∨ assigned.stored.fits = true) ∧ t' = t.putOrder id loaded assigned := by
  rw [flushOrder, Draft.putOrder]
  by_cases hsame : assigned = loaded
  · rw [if_pos hsame, if_pos hsame, returns_ret]
    simp [hsame]
  · rw [if_neg hsame, if_neg hsame, returns_query]
    have happly := apply_orderChange loaded assigned huser
    by_cases hfits : assigned.stored.fits = true
    · have hcheck : ((orderChange loaded assigned).apply loaded).stored.fits = true := by
        rw [happly]
        exact hfits
      have hupdate : t.update (.order id)
          (fun o : Order => ((orderChange loaded assigned).apply o).stored) Order.fits =
            (.ok (), t.put (.order id) ((orderChange loaded assigned).apply loaded).stored) :=
        Draft.update_ok hrow hcheck
      rw [happly] at hupdate
      simp only [onDraft, Draft.effect, hupdate, hfits]
      simp [eq_comm]
    · obtain ⟨error, herror⟩ : ∃ error, t.update (.order id)
          (fun o : Order => ((orderChange loaded assigned).apply o).stored) Order.fits =
            (.error error, t) := by
        apply Draft.update_error
        intro row hrow' hfits'
        rw [hrow, Option.some.injEq] at hrow'
        rw [← hrow', happly] at hfits'
        exact hfits hfits'
      simp only [onDraft, Draft.effect, herror]
      simp [hsame, hfits]

theorem Draft.lookup_putOrder (t : Draft) (id : Uuid) (loaded assigned : Order) {k : Key}
    (hk : k ≠ .order id) : (t.putOrder id loaded assigned).seen.lookup k = t.seen.lookup k := by
  rw [Draft.putOrder]
  split
  · rfl
  · rw [Draft.seen_put, AList.lookup_insert_ne hk]

/-- The items of an order are replaced. -/
theorem returns_replaceItems {id : Uuid} {lines : List ItemLine} {old : List OrderItem}
    (hold : itemsOf t.seen id = old) {next : Handler α} {result : α} :
    Returns draw (query (.insertItems id lines) >>= fun _ =>
        query (.deleteItems id (old.map OrderItem.id)) >>= fun _ => next) t result t' ↔
      freshIDs t.seen draw.itemIDs lines = true ∧
        Returns draw next ((t.put (.items id) (old ++ newItems draw.itemIDs lines)).put (.items id)
          (newItems draw.itemIDs lines)) result t' := by
  by_cases hfresh : freshIDs t.seen draw.itemIDs lines = true
  · have hinsert : onDraft draw (.insertItems id lines) t =
        some (.ok (), t.put (.items id) (old ++ newItems draw.itemIDs lines)) := by
      simp only [onDraft, Draft.effect, hfresh, if_true, hold]
    have hinserted := inserted_newItems id hfresh
    rw [hold] at hinserted
    rw [Returns, alone_query hinsert, alone_query hinserted.delete, Returns]
    simp [hfresh]
  · have hinsert : onDraft draw (.insertItems id lines) t = none := by
      simp only [onDraft, Draft.effect, hfresh]
      rfl
    constructor
    · intro h
      obtain ⟨_, _, hquery, _⟩ := returns_bind.mp h
      rw [returns_query, hinsert] at hquery
      cases hquery
    · rintro ⟨h, _⟩
      exact absurd h hfresh

theorem returns_insertOperation {subject : Uuid} {operationType : OperationType}
    {next : Unit → Handler α} {result : α} :
    Returns draw (query (.insertOperation subject operationType) >>= next) t result t' ↔
      .operation draw.operationID ∉ t.seen ∧
        Returns draw (next ()) (t.put (.operation draw.operationID)
          ⟨subject, operationType, draw.clock⟩) result t' := by
  by_cases hmem : .operation draw.operationID ∈ t.seen
  · have hinsert : onDraft draw (.insertOperation subject operationType) t = none := by
      simp only [onDraft, Draft.effect, Draft.insert, hmem]
      rfl
    constructor
    · intro h
      obtain ⟨_, _, hquery, _⟩ := returns_bind.mp h
      rw [returns_query, hinsert] at hquery
      cases hquery
    · rintro ⟨h, _⟩
      exact absurd hmem h
  · have hinsert : onDraft draw (.insertOperation subject operationType) t = some (.ok (),
        t.put (.operation draw.operationID) ⟨subject, operationType, draw.clock⟩) := by
      simp only [onDraft, Draft.effect, Draft.insert, hmem]
      rfl
    rw [Returns, alone_query hinsert, Returns]
    simp [hmem]

theorem returns_commit {next : Unit → Handler α} {result : α} :
    Returns draw (query .commit >>= next) t result t' ↔
      Returns draw (next ()) ⟨t.seen, ∅⟩ result t' := by
  have hcommit : onDraft draw .commit t = some (.ok (), ⟨t.seen, ∅⟩) := rfl
  rw [Returns, alone_query hcommit, Returns]

/-- The order is read again after the commit. -/
theorem returns_orderResponse {id : Uuid} {order : Order}
    (hrow : t.seen.lookup (.order id) = some order) {response : Response} :
    Returns draw (orderResponse id) t response t' ↔
      response = .order ⟨id, order, itemsOf t.seen id⟩ ∧ t' = t := by
  have hread : answerOf t.seen (.refreshOrder id) = some (some order) := congrArg some hrow
  change Returns draw (query (.refreshOrder id) >>= _) t response t' ↔ _
  rw [returns_read hread]
  have hitems : answerOf t.seen (.selectItems id) = some (itemsOf t.seen id) := rfl
  change Returns draw (query (.selectItems id) >>= _) t response t' ↔ _
  rw [returns_read hitems, Program.pure_eq, returns_ret]

/-! ## The finish -/

/-- What an update leaves when it commits. -/
def Draft.updated (t : Draft) (draw : Draw) (subject id : Uuid) (loaded assigned : Order)
    (lines : List ItemLine) : Draft :=
  let t := t.putOrder id loaded assigned
  let t := t.put (.items id) (itemsOf t.seen id ++ newItems draw.itemIDs lines)
  let t := t.put (.items id) (newItems draw.itemIDs lines)
  let t := t.put (.operation draw.operationID) ⟨subject, .updateOrder, draw.clock⟩
  ⟨t.seen, ∅⟩

/-- The order row after `assigned` is flushed. -/
def Order.flushed (loaded assigned : Order) : Order :=
  if assigned = loaded then loaded else assigned.stored

theorem lookup_putOrder_self {id : Uuid} {loaded assigned : Order}
    (hrow : t.seen.lookup (.order id) = some loaded) :
    (t.putOrder id loaded assigned).seen.lookup (.order id) = some (loaded.flushed assigned) := by
  rw [Draft.putOrder, Order.flushed]
  split
  · exact hrow
  · rw [Draft.seen_put]
    exact AList.lookup_insert _

theorem itemsOf_putOrder (id : Uuid) (loaded assigned : Order) (o : Uuid) :
    itemsOf (t.putOrder id loaded assigned).seen o = itemsOf t.seen o := by
  have hne : Key.items o ≠ .order id := by simp
  rw [itemsOf, t.lookup_putOrder id loaded assigned hne, itemsOf]

theorem Draft.lookup_updated (t : Draft) {subject id : Uuid} {loaded assigned : Order}
    {lines : List ItemLine} {k : Key} (hitems : k ≠ .items id)
    (hoperation : k ≠ .operation draw.operationID) :
    (t.updated draw subject id loaded assigned lines).seen.lookup k =
      (t.putOrder id loaded assigned).seen.lookup k := by
  simp only [Draft.updated]
  rw [Draft.seen_of_written, Draft.lookup_put_of_ne _ hoperation,
    Draft.lookup_put_of_ne _ hitems, Draft.lookup_put_of_ne _ hitems]

theorem Draft.itemsOf_updated (t : Draft) (subject id : Uuid) (loaded assigned : Order)
    (lines : List ItemLine) :
    itemsOf (t.updated draw subject id loaded assigned lines).seen id =
      newItems draw.itemIDs lines := by
  have hne : Key.items id ≠ .operation draw.operationID := by simp
  simp only [Draft.updated]
  rw [Draft.seen_of_written, itemsOf, Draft.lookup_put_of_ne _ hne, Draft.lookup_put_self]
  rfl

/-- Keys are new if they are no keys of items. -/
theorem freshIDs_congr {rows rows' : Rows}
    (h : ∀ o, rows'.lookup (.items o) = rows.lookup (.items o))
    (ids : List Uuid) (lines : List ItemLine) :
    freshIDs rows' ids lines = freshIDs rows ids lines := by
  have hmono : ∀ {rows rows' : Rows}, (∀ o, rows'.lookup (.items o) = rows.lookup (.items o)) →
      ∀ id, id ∈ itemIDs rows' → id ∈ itemIDs rows := by
    intro rows rows' h id hid
    obtain ⟨k, row, hrow, hmem⟩ := mem_itemIDs_iff.mp hid
    cases k with
    | items o => exact mem_itemIDs_iff.mpr ⟨.items o, row, (h o).symm.trans hrow, hmem⟩
    | _ => cases hmem
  have hids : ∀ id, id ∈ itemIDs rows' ↔ id ∈ itemIDs rows :=
    fun id => ⟨hmono h id, hmono (fun o => (h o).symm) id⟩
  simp only [freshIDs, hids]

theorem returns_finish {subject id : Uuid} {loaded assigned : Order} {placement : Placement}
    (hrow : t.seen.lookup (.order id) = some loaded) (huser : assigned.userID = loaded.userID)
    {response : Response} :
    Returns draw (updateOrder.finish subject id loaded (itemsOf t.seen id) placement assigned) t
        response t' ↔
      (assigned = loaded ∨ assigned.stored.fits = true) ∧
        freshIDs t.seen draw.itemIDs placement.lines = true ∧
        .operation draw.operationID ∉ t.seen ∧
        t' = t.updated draw subject id loaded assigned placement.lines ∧
        response = .order ⟨id, loaded.flushed assigned,
          newItems draw.itemIDs placement.lines⟩ := by
  have hitems : itemsOf (t.putOrder id loaded assigned).seen id = itemsOf t.seen id :=
    itemsOf_putOrder id loaded assigned id
  have hfresh : freshIDs (t.putOrder id loaded assigned).seen draw.itemIDs placement.lines =
      freshIDs t.seen draw.itemIDs placement.lines :=
    freshIDs_congr (fun o => t.lookup_putOrder id loaded assigned (k := .items o) (by simp)) _ _
  have hstart : Returns draw
      (updateOrder.finish subject id loaded (itemsOf t.seen id) placement assigned) t response t' ↔
        (assigned = loaded ∨ assigned.stored.fits = true) ∧
          Returns draw (query (.insertItems id placement.lines) >>= fun _ =>
            query (.deleteItems id ((itemsOf t.seen id).map OrderItem.id)) >>= fun _ =>
              query (.insertOperation subject .updateOrder) >>= fun _ =>
                query .commit >>= fun _ => orderResponse id)
            (t.putOrder id loaded assigned) response t' := by
    change Returns draw (flushOrder id loaded assigned >>= _) t response t' ↔ _
    rw [returns_bind]
    simp only [returns_flushOrder hrow huser]
    constructor
    · rintro ⟨_, _, ⟨hfits, rfl⟩, hrest⟩
      exact ⟨hfits, hrest⟩
    · rintro ⟨hfits, hrest⟩
      exact ⟨(), _, ⟨hfits, rfl⟩, hrest⟩
  rw [hstart, returns_replaceItems hitems, hfresh, returns_insertOperation, returns_commit]
  have hop : .operation draw.operationID ∈ (((t.putOrder id loaded assigned).put (.items id)
      (itemsOf t.seen id ++ newItems draw.itemIDs placement.lines)).put (.items id)
        (newItems draw.itemIDs placement.lines)).seen ↔ .operation draw.operationID ∈ t.seen := by
    have hitem : Key.operation draw.operationID ≠ .items id := by simp
    have hrow : Key.operation draw.operationID ≠ .order id := by simp
    apply mem_congr
    rw [Draft.lookup_put_of_ne _ hitem, Draft.lookup_put_of_ne _ hitem,
      t.lookup_putOrder id loaded assigned hrow]
  have hupdated : (⟨((((t.putOrder id loaded assigned).put (.items id)
      (itemsOf t.seen id ++ newItems draw.itemIDs placement.lines)).put (.items id)
        (newItems draw.itemIDs placement.lines)).put (.operation draw.operationID)
          ⟨subject, .updateOrder, draw.clock⟩).seen, ∅⟩ : Draft) =
      t.updated draw subject id loaded assigned placement.lines := by
    simp only [Draft.updated, hitems]
  have horder : (t.updated draw subject id loaded assigned placement.lines).seen.lookup
      (.order id) = some (loaded.flushed assigned) := by
    have hitem : Key.order id ≠ .items id := by simp
    have hop : Key.order id ≠ .operation draw.operationID := by simp
    rw [t.lookup_updated hitem hop, lookup_putOrder_self hrow]
  rw [hop, hupdated, returns_orderResponse horder, t.itemsOf_updated]
  constructor
  · rintro ⟨hfits, hids, hoperation, hresponse, hend⟩
    exact ⟨hfits, hids, hoperation, hend, hresponse⟩
  · rintro ⟨hfits, hids, hoperation, hend, hresponse⟩
    exact ⟨hfits, hids, hoperation, hresponse, hend⟩

end Writes

/-! ## The whole update -/

def priceIn (rows : Rows) (p : Uuid) : ℚ :=
  ((rows.lookup (.product p) : Option Product).map Product.price).getD 0

/-- What the lines cost. -/
def listTotal (rows : Rows) (items : List OrderItemCreate) : ℚ :=
  (items.map fun item => priceIn rows item.productID * (item.quantity : ℚ)).sum

/-- The promo code of the order is kept and gives `discount`. -/
inductive KeptPromo (rows : Rows) (now : Int) (order : Order) (total discount : ℚ) : Prop where
  | without (hnone : order.promoCodeID = none) (hdiscount : discount = 0)
  | promo (q : Uuid) (promo : PromoCode) (horder : order.promoCodeID = some q)
      (hrow : rows.lookup (.promo q) = some promo)
      (hvalid : validatePromoBasic now promo true = .ok ())
      (hdiscount : calculateDiscount promo total = .ok discount)

/-- The order at its new amounts. -/
def Order.billed (order : Order) (total discount : ℚ) : Order :=
  { order with totalAmount := total - discount, discountAmount := discount }

/-- The products that an update loads. -/
def updateLoaded (rows : Rows) (id : Uuid) (items : List OrderItemCreate) : ProductMap :=
  productMap rows (updateProductIDs (requestedTotals items) (itemsOf rows id))

def updatePlacement (rows : Rows) (id : Uuid) (items : List OrderItemCreate) : Placement :=
  placed (updateLoaded rows id items) (itemsOf rows id) items

/-- The stocks that an update flushes. -/
def updateStocks (rows : Rows) (id : Uuid) (items : List OrderItemCreate) : List (Uuid × Int) :=
  changedStocks (updateLoaded rows id items) (updatePlacement rows id items).products

/-- The update passes its checks, and the columns take what it writes. -/
structure Updatable (settings : Settings) (draw : Draw) (rows : Rows) (subject id : Uuid)
    (items : List OrderItemCreate) (order : Order) (discount : ℚ) : Prop where
  allowed : Allowed rows subject id order
  created : order.status = .created
  limit : WithinLimit settings rows draw.clock subject .updateOrder
  placeable : Placeable (giveBack (updateLoaded rows id items) (itemsOf rows id)) items
  promo : KeptPromo rows draw.clock order (listTotal rows items) discount
  storable : Storable rows (updateStocks rows id items)
  amounts : order.billed (listTotal rows items) discount = order ∨
    (order.billed (listTotal rows items) discount).stored.fits = true
  fresh : freshIDs rows draw.itemIDs (updatePlacement rows id items).lines = true
  operation : .operation draw.operationID ∉ rows

section Update

variable {draw : Draw} {settings : Settings} {rows : Rows} {subject id : Uuid}

theorem covers_update (rows : Rows) (id : Uuid) (items : List OrderItemCreate) :
    Covers (updateProductIDs (requestedTotals items) (itemsOf rows id)) items
      (itemsOf rows id) := by
  constructor
  · intro p hp
    exact List.mem_dedup.mpr (List.mem_append_left _ hp)
  · intro p hp
    exact List.mem_dedup.mpr (List.mem_append_right _ hp)

theorem priceOf_update {items : List OrderItemCreate} {p : Uuid}
    (h : p ∈ (requestedTotals items).map Prod.fst) :
    priceOf (giveBack (updateLoaded rows id items) (itemsOf rows id)) p = priceIn rows p := by
  have hid := (covers_update rows id items).requested p h
  rw [priceOf, lookup_giveBack, updateLoaded, lookup_productMap, if_pos hid, Option.map_map,
    priceIn]
  rfl

theorem linesTotal_update {items : List OrderItemCreate} :
    linesTotal (updatePlacement rows id items).lines = listTotal rows items := by
  have hprice : ∀ line ∈ requestedTotals items,
      priceOf (giveBack (updateLoaded rows id items) (itemsOf rows id)) line.1 * (line.2 : ℚ) =
        priceIn rows line.1 * (line.2 : ℚ) := by
    intro line hline
    rw [priceOf_update (List.mem_map.mpr ⟨line, hline, rfl⟩)]
  rw [updatePlacement, placed, linesTotal_priceItems, List.map_congr_left hprice,
    sum_requestedTotals (priceIn rows), listTotal]

theorem returns_checked {t t' : Draft} {rest : Order → Handler Response} {response : Response} :
    Returns draw (requireRoles [.user, .admin] subject >>= fun user =>
        loadOrder subject user id >>= fun order =>
          Program.raiseIf (decide (order.status ≠ .created)) (.api .invalidStateTransition) >>=
            fun _ => checkRateLimit settings subject .updateOrder >>= fun _ => rest order)
        t response t' ↔
      ∃ order, Allowed t.seen subject id order ∧ order.status = .created ∧
        WithinLimit settings t.seen draw.clock subject .updateOrder ∧
        Returns draw (rest order) t response t' := by
  simp only [returns_bind, returns_requireRoles, returns_loadOrder, returns_raiseIf,
    returns_checkRateLimit]
  constructor
  · rintro ⟨user, _, ⟨huser, hrole, rfl⟩, order, _, ⟨horder, howner, rfl⟩, _, _, ⟨hstatus, rfl⟩, _,
      _, ⟨hlimit, rfl⟩, hrest⟩
    refine ⟨order, ⟨⟨user, huser, hrole, howner⟩, horder⟩, ?_, hlimit, hrest⟩
    by_contra hne
    rw [decide_eq_true hne] at hstatus
    cases hstatus
  · rintro ⟨order, ⟨⟨user, huser, hrole, howner⟩, horder⟩, hstatus, hlimit, hrest⟩
    exact ⟨user, t, ⟨huser, hrole, rfl⟩, order, t, ⟨horder, howner, rfl⟩, (), t,
      ⟨decide_eq_false (not_not.mpr hstatus), rfl⟩, (), t, ⟨hlimit, rfl⟩, hrest⟩

theorem lookup_putStocks_start {changes : List (Uuid × Int)} {k : Key} (hk : ∀ p, k ≠ .product p) :
    (Draft.putStocks ⟨rows, ∅⟩ changes).seen.lookup k = rows.lookup k := by
  rw [Draft.lookup_putStocks_other _ fun change _ => hk change.1]
  exact congrArg (AList.lookup k) AList.empty_union

/-- The flush of the stocks, and the finish. -/
theorem returns_written {changes : List (Uuid × Int)} (hnodup : (changes.map Prod.fst).Nodup)
    {order assigned : Order} (hrow : rows.lookup (.order id) = some order)
    (huser : assigned.userID = order.userID) {placement : Placement} {response : Response}
    {t : Draft} :
    Returns draw (flushStocks changes >>= fun _ =>
        updateOrder.finish subject id order (itemsOf rows id) placement assigned) ⟨rows, ∅⟩
        response t ↔
      Storable rows changes ∧ (assigned = order ∨ assigned.stored.fits = true) ∧
        freshIDs rows draw.itemIDs placement.lines = true ∧ .operation draw.operationID ∉ rows ∧
        t = (Draft.putStocks ⟨rows, ∅⟩ changes).updated draw subject id order assigned
          placement.lines ∧
        response = .order ⟨id, order.flushed assigned,
          newItems draw.itemIDs placement.lines⟩ := by
  have hseen : (⟨rows, ∅⟩ : Draft).seen = rows := AList.empty_union
  have hitems : itemsOf (Draft.putStocks ⟨rows, ∅⟩ changes).seen id = itemsOf rows id := by
    rw [itemsOf, lookup_putStocks_start (k := .items id) (by simp), itemsOf]
  have hloaded : (Draft.putStocks ⟨rows, ∅⟩ changes).seen.lookup (.order id) = some order :=
    (lookup_putStocks_start (k := .order id) (by simp)).trans hrow
  have hfresh : freshIDs (Draft.putStocks ⟨rows, ∅⟩ changes).seen draw.itemIDs placement.lines =
      freshIDs rows draw.itemIDs placement.lines :=
    freshIDs_congr (fun o => lookup_putStocks_start (k := .items o) (by simp)) _ _
  have hop : .operation draw.operationID ∈ (Draft.putStocks ⟨rows, ∅⟩ changes).seen ↔
      .operation draw.operationID ∈ rows := mem_congr (lookup_putStocks_start (by simp))
  have hfinish : ∀ response, Returns draw (updateOrder.finish subject id order
      (itemsOf (Draft.putStocks ⟨rows, ∅⟩ changes).seen id) placement assigned)
      (Draft.putStocks ⟨rows, ∅⟩ changes) response t ↔ _ :=
    fun response => returns_finish hloaded huser
  rw [hitems, hfresh, hop] at hfinish
  rw [returns_bind]
  simp only [returns_flushStocks hnodup, hseen]
  constructor
  · rintro ⟨_, _, ⟨hstorable, rfl⟩, hrest⟩
    exact ⟨hstorable, (hfinish response).mp hrest⟩
  · rintro ⟨hstorable, hrest⟩
    exact ⟨(), _, ⟨hstorable, rfl⟩, (hfinish response).mpr hrest⟩

/-- What follows the checks of an update. -/
def placeUpdate (subject id : Uuid) (order : Order)
    (items : List OrderItem) (products : ProductMap) (placement : Placement) : Handler Response :=
  let total := linesTotal placement.lines
  match order.promoCodeID with
  | none => do
      flushStocks (changedStocks products placement.products)
      updateOrder.finish subject id order items placement
        { order with totalAmount := total, discountAmount := 0 }
  | some promoID => do
      let promo ← require .promoCodeInvalid (← query (.selectPromo promoID))
      let now ← query .now
      returnApi (validatePromoBasic now promo true)
      if total < promo.minOrderAmount then
        let uses := if 0 < promo.currentUses then promo.currentUses - 1 else promo.currentUses
        flushStocks (changedStocks products placement.products)
        flushUses promoID promo uses
        updateOrder.finish subject id order items placement
          { order with promoCodeID := none, totalAmount := total, discountAmount := 0 }
      else
        let discount ← returnApi (calculateDiscount promo total)
        flushStocks (changedStocks products placement.products)
        updateOrder.finish subject id order items placement
          { order with totalAmount := total - discount, discountAmount := discount }

theorem updateOrder_eq (settings : Settings) (subject id : Uuid) (payload : OrderUpdateRequest) :
    updateOrder settings subject id payload =
      requireRoles [.user, .admin] subject >>= fun user =>
        loadOrder subject user id >>= fun order =>
          Program.raiseIf (decide (order.status ≠ .created)) (.api .invalidStateTransition) >>=
            fun _ => checkRateLimit settings subject .updateOrder >>= fun _ =>
              query (.selectItems id) >>= fun items =>
                query (.selectProductsForUpdate
                  (updateProductIDs (requestedTotals payload.items) items)) >>= fun products =>
                    returnApi (placeItems (giveBack products items) payload.items) >>=
                      placeUpdate subject id order items products := rfl

theorem returns_placeUpdate {products : ProductMap} {placement : Placement} {order : Order}
    (hrow : rows.lookup (.order id) = some order)
    (hmeets : ∀ q promo, order.promoCodeID = some q → rows.lookup (.promo q) = some promo →
      promo.minOrderAmount ≤ linesTotal placement.lines) {response : Response} {t : Draft} :
    Returns draw (placeUpdate subject id order (itemsOf rows id) products placement) ⟨rows, ∅⟩
        response t ↔
      ∃ discount, KeptPromo rows draw.clock order (linesTotal placement.lines) discount ∧
        Returns draw (flushStocks (changedStocks products placement.products) >>= fun _ =>
          updateOrder.finish subject id order (itemsOf rows id) placement
            (order.billed (linesTotal placement.lines) discount)) ⟨rows, ∅⟩ response t := by
  have hseen : (⟨rows, ∅⟩ : Draft).seen = rows := AList.empty_union
  obtain ⟨userID, status, promoCodeID, oldTotal, oldDiscount⟩ := order
  cases promoCodeID with
  | none =>
      change Returns draw (flushStocks (changedStocks products placement.products) >>= fun _ =>
        updateOrder.finish subject id ⟨userID, status, none, oldTotal, oldDiscount⟩
          (itemsOf rows id) placement ⟨userID, status, none, linesTotal placement.lines, 0⟩)
        ⟨rows, ∅⟩ response t ↔ _
      simp only [Order.billed]
      constructor
      · intro h
        refine ⟨0, .without rfl rfl, ?_⟩
        rwa [sub_zero]
      · rintro ⟨discount, hkept, h⟩
        cases hkept with
        | without _ hdiscount => rwa [hdiscount, sub_zero] at h
        | promo q promo horder => cases horder
  | some q =>
      have hread : answerOf (⟨rows, ∅⟩ : Draft).seen (.selectPromo q) =
          some (rows.lookup (.promo q)) := by
        rw [hseen]
        rfl
      change Returns draw (query (.selectPromo q) >>= _) ⟨rows, ∅⟩ response t ↔ _
      rw [returns_read hread, returns_bind]
      simp only [returns_require]
      constructor
      · rintro ⟨promo, _, ⟨hpromo, rfl⟩, h⟩
        obtain ⟨_, _, hvalidate, h⟩ := returns_bind.mp (returns_now.mp h)
        obtain ⟨hvalid, rfl⟩ := returns_returnApi.mp hvalidate
        rw [if_neg (not_lt.mpr (hmeets q promo rfl hpromo))] at h
        obtain ⟨discount, _, hcalculate, h⟩ := returns_bind.mp h
        obtain ⟨hdiscount, rfl⟩ := returns_returnApi.mp hcalculate
        exact ⟨discount, .promo q promo rfl hpromo hvalid hdiscount, h⟩
      · rintro ⟨discount, hkept, h⟩
        cases hkept with
        | without hnone => cases hnone
        | promo q' promo horder hpromo hvalid hdiscount =>
            cases horder
            refine ⟨promo, _, ⟨hpromo, rfl⟩, ?_⟩
            refine returns_now.mpr (returns_bind.mpr
              ⟨(), _, returns_returnApi.mpr ⟨hvalid, rfl⟩, ?_⟩)
            rw [if_neg (not_lt.mpr (hmeets q promo rfl hpromo))]
            exact returns_bind.mpr ⟨discount, _, returns_returnApi.mpr ⟨hdiscount, rfl⟩, h⟩

/-- An order that keeps its promo code is updated if and only if its checks pass. -/
theorem returns_updateOrder {payload : OrderUpdateRequest} {response : Response} {t : Draft}
    (hmeets : ∀ order q promo, rows.lookup (.order id) = some order →
      order.promoCodeID = some q → rows.lookup (.promo q) = some promo →
      promo.minOrderAmount ≤ listTotal rows payload.items) :
    Returns draw (updateOrder settings subject id payload) ⟨rows, ∅⟩ response t ↔
      ∃ order discount, Updatable settings draw rows subject id payload.items order discount ∧
        t = (Draft.putStocks ⟨rows, ∅⟩ (updateStocks rows id payload.items)).updated draw subject
          id order (order.billed (listTotal rows payload.items) discount)
          (updatePlacement rows id payload.items).lines ∧
        response = .order ⟨id,
          order.flushed (order.billed (listTotal rows payload.items) discount),
          newItems draw.itemIDs (updatePlacement rows id payload.items).lines⟩ := by
  have hseen : (⟨rows, ∅⟩ : Draft).seen = rows := AList.empty_union
  have hitems : answerOf (⟨rows, ∅⟩ : Draft).seen (.selectItems id) = some (itemsOf rows id) := by
    rw [hseen]
    rfl
  have hproducts : answerOf (⟨rows, ∅⟩ : Draft).seen (.selectProductsForUpdate
      (updateProductIDs (requestedTotals payload.items) (itemsOf rows id))) =
        some (updateLoaded rows id payload.items) := by
    rw [hseen]
    rfl
  have hplace : ∀ order, rows.lookup (.order id) = some order →
      (Returns draw (returnApi (placeItems (giveBack (updateLoaded rows id payload.items)
        (itemsOf rows id)) payload.items) >>= placeUpdate subject id order (itemsOf rows id)
          (updateLoaded rows id payload.items)) ⟨rows, ∅⟩ response t ↔
        Placeable (giveBack (updateLoaded rows id payload.items) (itemsOf rows id))
          payload.items ∧
        ∃ discount, KeptPromo rows draw.clock order (listTotal rows payload.items) discount ∧
          Returns draw (flushStocks (updateStocks rows id payload.items) >>= fun _ =>
            updateOrder.finish subject id order (itemsOf rows id)
              (updatePlacement rows id payload.items)
              (order.billed (listTotal rows payload.items) discount)) ⟨rows, ∅⟩ response t) := by
    intro order hrow
    have hminimum : ∀ q promo, order.promoCodeID = some q →
        rows.lookup (.promo q) = some promo →
          promo.minOrderAmount ≤ linesTotal (updatePlacement rows id payload.items).lines := by
      rw [linesTotal_update]
      exact fun q promo => hmeets order q promo hrow
    have hupdate : Returns draw (placeUpdate subject id order (itemsOf rows id)
        (updateLoaded rows id payload.items) (updatePlacement rows id payload.items)) ⟨rows, ∅⟩
        response t ↔ _ := returns_placeUpdate hrow hminimum
    rw [linesTotal_update] at hupdate
    rw [returns_bind]
    simp only [returns_returnApi]
    constructor
    · rintro ⟨placement, _, ⟨hplaced, rfl⟩, h⟩
      have hplaceable := placeable_of_placeItems hplaced
      rw [placeItems_eq hplaceable, Except.ok.injEq] at hplaced
      subst hplaced
      exact ⟨hplaceable, hupdate.mp h⟩
    · rintro ⟨hplaceable, h⟩
      exact ⟨_, _, ⟨placeItems_eq hplaceable, rfl⟩, hupdate.mpr h⟩
  have huser : ∀ (order : Order) (discount : ℚ),
      (order.billed (listTotal rows payload.items) discount).userID = order.userID :=
    fun _ _ => rfl
  rw [updateOrder_eq, returns_checked]
  simp only [returns_read hitems, returns_read hproducts, hseen]
  constructor
  · rintro ⟨order, hallowed, hcreated, hlimit, h⟩
    obtain ⟨hplaceable, discount, hkept, h⟩ := (hplace order hallowed.order).mp h
    obtain ⟨hstorable, hamounts, hfresh, hop, hend, hresponse⟩ :=
      (returns_written (nodup_changedStocks _ _) hallowed.order (huser order discount)).mp h
    exact ⟨order, discount, ⟨hallowed, hcreated, hlimit, hplaceable, hkept, hstorable, hamounts,
      hfresh, hop⟩, hend, hresponse⟩
  · rintro ⟨order, discount, h, hend, hresponse⟩
    refine ⟨order, h.allowed, h.created, h.limit, (hplace order h.allowed.order).mpr
      ⟨h.placeable, discount, h.promo, ?_⟩⟩
    exact (returns_written (nodup_changedStocks _ _) h.allowed.order (huser order discount)).mpr
      ⟨h.storable, h.amounts, h.fresh, h.operation, hend, hresponse⟩

end Update

end SoaHomework.Marketplace

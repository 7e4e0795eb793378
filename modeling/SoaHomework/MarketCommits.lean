import SoaHomework.MarketRequests

/-!
# From the handlers to their effects

What an order handler has flushed before it writes the order itself
(`Flushed`), and the proof of each handler up to its commit. With them the
discipline of the marketplace is sound (`sound`).
-/

namespace SoaHomework.Marketplace

open StatementProgram

/-- The session has flushed the stocks of `products` over `loaded`, one promo
    counter as `uses` says, and nothing of an order. -/
structure Flushed (written : Rows) (known : (k : Key) → Option (Row k))
    (loaded products : ProductMap) (uses : Option (Uuid × Int)) : Prop where
  products : ∀ p, written.lookup (.product p) =
    (writtenStocks loaded ∅ (changedStocks loaded products)).lookup (.product p)
  locked : ∀ p x, loaded.lookup p = some x → known (.product p) = some x
  promos : ∀ q, (∀ n, uses ≠ some (q, n)) → written.lookup (.promo q) = none
  use : ∀ q n, uses = some (q, n) → ∃ x : PromoCode, known (.promo q) = some x ∧
    written.lookup (.promo q) = some { x with currentUses := n }
  orders : ∀ id, written.lookup (.order id) = none ∧ written.lookup (.items id) = none
  unknown : ∀ id, known (.order id) = none ∧ known (.items id) = none

variable {settings : Settings} {request : Request} {i : Nat} {s : State} {session : Session}
  {written written' rows : Rows} {known known' : (k : Key) → Option (Row k)}
  {present : List Key} {loaded products : ProductMap} {uses : Option (Uuid × Int)}
  {change : Uuid → Int}

theorem flushed_stocks (loaded products : ProductMap) :
    Flushed (writtenStocks loaded ∅ (changedStocks loaded products)) (knownProducts loaded)
      loaded products none where
  products _ := rfl
  locked _ _ h := h
  promos q _ := lookup_writtenStocks_other (by simp)
  use q n h := by cases h
  orders id := ⟨lookup_writtenStocks_other (by simp), lookup_writtenStocks_other (by simp)⟩
  unknown _ := ⟨rfl, rfl⟩

theorem Flushed.withUse (h : Flushed written known loaded products none) (q : Uuid) (n : Int)
    (promo : PromoCode) :
    Flushed (written.insert (.promo q) { promo with currentUses := n })
      (Function.update known (.promo q) (some promo)) loaded products (some (q, n)) where
  products p := by rw [AList.lookup_insert_ne (by simp), h.products]
  locked p x hx := by rw [Function.update_of_ne (by simp), h.locked p x hx]
  promos q' hq' := by
    have hne : q' ≠ q := fun heq => hq' n (by rw [heq])
    rw [AList.lookup_insert_ne (by simpa using hne)]
    exact h.promos q' (by simp)
  use q' n' hq' := by
    obtain ⟨rfl, rfl⟩ := Prod.mk.inj (Option.some.inj hq')
    exact ⟨promo, Function.update_self _ _ _, AList.lookup_insert _⟩
  orders id := by
    rw [AList.lookup_insert_ne (by simp), AList.lookup_insert_ne (by simp)]
    exact h.orders id
  unknown id := by
    rw [Function.update_of_ne (by simp), Function.update_of_ne (by simp)]
    exact h.unknown id

/-- The rows of the catalogue. -/
def Key.isCatalog : Key → Bool
  | .product _ => true
  | .promo _ => true
  | _ => false

/-- The commit moves the stocks and the promo counter as they were flushed,
    whatever else the session has written for its order. -/
theorem Flushed.orderWrite (h : Flushed written known loaded products uses)
    (hat : At i session written' known' present s) {orderID : Uuid}
    (hcatalog : ∀ k : Key, k.isCatalog = true → written'.lookup k = written.lookup k ∧
      known' k = known k)
    (hothers : ∀ id, id ≠ orderID → written'.lookup (.order id) = none ∧
      written'.lookup (.items id) = none)
    (hproducts : ∀ p, products.lookup p =
      (loaded.lookup p).map fun product => product.addStock (change p))
    (hzero : ∀ p, loaded.lookup p = none → change p = 0)
    (hnonneg : ∀ p x, loaded.lookup p = some x → 0 ≤ x.stock → 0 ≤ x.stock + change p) :
    OrderWrite written' s.db.rows (s.db.commit i).rows orderID change uses := by
  have hlocked : ∀ p x, loaded.lookup p = some x →
      s.db.rows.lookup (.product p) = some x := by
    intro p x hx
    refine (hat.holds.locked (.product p) x ?_).2
    rw [(hcatalog (.product p) rfl).2, h.locked p x hx]
  refine ⟨fun p => ?_, fun p x hx hstock => ?_, fun q => ?_, fun q n huse => ?_, fun id hid => ?_⟩
  · rw [hat.holds.commit_lookup, (hcatalog (.product p) rfl).1, h.products]
    have hflushed := lookup_written hproducts ∅ (AList.lookup_empty (Key.product p))
    cases hp : loaded.lookup p with
    | some x =>
        rw [hlocked p x hp, ← hp, hflushed, hproducts, hp]
    | none =>
        rw [hp, hproducts, hp, Option.or_none, Option.map_none] at hflushed
        rw [hflushed, Option.none_or, hzero p hp]
        simp
  · cases hp : loaded.lookup p with
    | some y =>
        rw [hlocked p y hp, Option.some.injEq] at hx
        exact hnonneg p x (hx ▸ hp) hstock
    | none =>
        rw [hzero p hp]
        omega
  · rw [hat.holds.commit_lookup, (hcatalog (.promo q) rfl).1]
    by_cases huse : ∃ n, uses = some (q, n)
    · obtain ⟨n, huse⟩ := huse
      obtain ⟨x, hx, hwritten⟩ := h.use q n huse
      have hrow := (hat.holds.locked (.promo q) x (by rw [(hcatalog (.promo q) rfl).2, hx])).2
      rw [hwritten, hrow, huse, Option.some_or, Option.map_some, assignUses, if_pos rfl]
    · rw [h.promos q fun n hn => huse ⟨n, hn⟩, Option.none_or]
      have hsame : assignUses uses q = id := by
        funext promo
        unfold assignUses
        split
        · rename_i id n
          rw [if_neg]
          · rfl
          · rintro rfl
            exact huse ⟨n, rfl⟩
        · rfl
      rw [hsame, Option.map_id]
      rfl
  · obtain ⟨x, _, hwritten⟩ := h.use q n huse
    rw [← (hcatalog (.promo q) rfl).1] at hwritten
    exact mem_of_lookup hwritten
  · rw [hat.holds.commit_lookup, hat.holds.commit_lookup, (hothers id hid).1, (hothers id hid).2]
    exact ⟨rfl, rfl⟩

/-! ## create_order -/

/-- The catalogue is flushed. -/
def Ready (i : Nat) (session : Session) (loaded products : ProductMap)
    (uses : Option (Uuid × Int)) (present : List Key) (s : State) : Prop :=
  ∃ written known, Flushed written known loaded products uses ∧
    At i session written known present s

theorem does_flushCatalog (hproducts : ∀ p, products.lookup p =
      (loaded.lookup p).map fun product => product.addStock (change p)) :
    Does settings request i (At i session ∅ (knownProducts loaded) present)
      (flushStocks (changedStocks loaded products)) fun _ =>
        At i session (writtenStocks loaded ∅ (changedStocks loaded products))
          (knownProducts loaded) present := by
  refine does_flushStocks (nodup_changedStocks loaded products)
    (fun _ _ => AList.notMem_empty _) (fun _ => rfl) fun next hnext => ?_
  obtain ⟨id, stock⟩ := next
  obtain ⟨p, hp, _, _⟩ := mem_changedStocks.mp hnext
  rw [hproducts, Option.map_eq_some_iff] at hp
  obtain ⟨x, hx, _⟩ := hp
  exact ⟨x, hx⟩

/-- Flushing the counter of a promo. -/
theorem does_flushUses (h : Flushed written known loaded products none) (q : Uuid)
    (promo : PromoCode) (n : Int) :
    Does settings request i (At i session written known present) (flushUses q promo n)
      fun _ => Ready i session loaded products
        (if n = promo.currentUses then none else some (q, n)) present := by
  unfold flushUses
  by_cases hsame : n = promo.currentUses
  · rw [if_pos hsame, if_pos hsame]
    exact does_ret fun s hat => ⟨written, known, h, hat⟩
  · rw [if_neg hsame, if_neg hsame]
    have hq : .promo q ∉ written := AList.lookup_eq_none.mp (h.promos q (by simp))
    refine Discipline.Triple.mono (does_query (moves_updateUses hq) (by simp))
      (fun _ _ h => h) fun result s _ hpost => ?_
    cases result with
    | error error => trivial
    | ok _ =>
        obtain ⟨row, hat⟩ := hpost
        exact ⟨_, _, h.withUse q n row, hat⟩

theorem PromoUse.congr {session' : Session} {order : Order} {code : Option String}
    (h : PromoUse session rows order code uses) (hpromo : session'.promo = session.promo) :
    PromoUse session' rows order code uses := by
  cases h with
  | without hnone => exact .without hnone
  | use code q promo hsession hexists hleft horder =>
      exact .use code q promo (hpromo.trans hsession) hexists hleft horder

/-- The products that placing items has found are locked. -/
theorem Placed.mem {placement : Placement} {items : List OrderItemCreate}
    {available : ProductMap} (h : Placed available items placement)
    (havailable : ∀ p, (loaded.lookup p).isSome = (available.lookup p).isSome)
    (hlocked : ∀ p x, loaded.lookup p = some x → s.db.rows.lookup (.product p) = some x) :
    ∀ item ∈ items, .product item.productID ∈ s.db.rows := by
  intro item hitem
  obtain ⟨x, hx, _⟩ := h.found item hitem
  have hsome := havailable item.productID
  rw [hx, Option.isSome_some, Option.isSome_iff_exists] at hsome
  obtain ⟨y, hy⟩ := hsome
  exact mem_of_lookup (hlocked item.productID y hy)

theorem quantityOf_requestLines_notMem {p : Uuid} {items : List OrderItemCreate}
    (h : p ∉ items.map OrderItemCreate.productID) : quantityOf p (requestLines items) = 0 := by
  refine quantityOf_eq_zero fun hmem => h ?_
  obtain ⟨line, hline, rfl⟩ := List.mem_map.mp hmem
  obtain ⟨item, hitem, rfl⟩ := List.mem_map.mp hline
  exact List.mem_map.mpr ⟨item, hitem, rfl⟩

/-- The writes of `create_order` and its commit. -/
theorem does_createOrder_finish {subject : Uuid} {payload : OrderCreateRequest}
    {placement : Placement} {order : Order}
    (hplaced : Placed loaded payload.items placement) (huser : order.userID = subject)
    (hstatus : order.status = .created)
    (hpromo : ∀ rows : Rows, (∀ k ∈ present, k ∈ rows) →
      PromoUse session rows order.stored payload.promoCode uses) :
    Does settings (.createOrder subject payload) i
      (Ready i session loaded placement.products uses present)
      (createOrder.finish subject placement order) fun _ _ => True := by
  refine Discipline.Triple.exists fun written => Discipline.Triple.exists fun known =>
    Discipline.Triple.pure fun hflushed => ?_
  refine does_bind _ (does_query moves_insertOrder (by simp)) fun id => ?_
  have hitems : (.items id : Key) ∉ written.insert (.order id) order.stored := by
    rw [AList.mem_insert]
    simp only [reduceCtorEq, false_or]
    exact AList.lookup_eq_none.mp (hflushed.orders id).2
  refine does_bind _ (does_query (moves_insertItems hitems (hflushed.unknown id).2) (by simp))
    fun _ => ?_
  refine Discipline.Triple.exists fun old => Discipline.Triple.exists fun added =>
    Discipline.Triple.pure fun hlines => Discipline.Triple.pure fun _ => ?_
  refine does_bind _ (does_query moves_insertOperation (by simp)) fun _ => ?_
  refine Discipline.Triple.exists fun operation => Discipline.Triple.exists fun row => ?_
  refine does_bind _ (does_commit fun s hrows hat => ?_) fun _ => does_orderResponse id
  have hlocked : ∀ p x, loaded.lookup p = some x →
      s.db.rows.lookup (.product p) = some x := by
    intro p x hx
    refine (hat.holds.locked (.product p) x ?_).2
    rw [Function.update_of_ne (by simp), hflushed.locked p x hx]
  have hnone : s.db.rows.lookup (.order id) = none := by
    refine (hat.holds.inserted (.order id) ?_ ?_).2
    · simp only [AList.mem_insert, true_or, or_true]
    · rw [Function.update_of_ne (by simp)]
      exact (hflushed.unknown id).1
  have hold : old = none := by
    cases hold : old with
    | none => rfl
    | some before =>
        have hbefore := (hat.holds.locked (.items id) before (by
          rw [Function.update_self, hold])).2
        have hexists := hrows.order id (mem_of_lookup hbefore)
        exact absurd hnone fun h => AList.lookup_eq_none.mp h hexists
  refine .createOrder uses id order.stored added hnone ?_ ?_ ?_ ?_ ?_ huser hstatus ?_
  · refine hflushed.orderWrite hat (fun k hk => ?_) (fun id' hid => ?_) hplaced.stocks
      (fun p hp => ?_) fun p x hx hstock => ?_
    · cases k with
      | product p =>
          rw [AList.lookup_insert_ne (by simp), AList.lookup_insert_ne (by simp),
            AList.lookup_insert_ne (by simp), Function.update_of_ne (by simp)]
          exact ⟨rfl, rfl⟩
      | promo q =>
          rw [AList.lookup_insert_ne (by simp), AList.lookup_insert_ne (by simp),
            AList.lookup_insert_ne (by simp), Function.update_of_ne (by simp)]
          exact ⟨rfl, rfl⟩
      | _ => cases hk
    · rw [AList.lookup_insert_ne (by simp), AList.lookup_insert_ne (by simp),
        AList.lookup_insert_ne (by simpa using hid), AList.lookup_insert_ne (by simp),
        AList.lookup_insert_ne (by simpa using hid), AList.lookup_insert_ne (by simp)]
      exact hflushed.orders id'
    · rw [quantityOf_requestLines_notMem, Int.neg_zero]
      intro hmem
      obtain ⟨item, hitem, rfl⟩ := List.mem_map.mp hmem
      obtain ⟨x, hx, _⟩ := hplaced.found item hitem
      rw [hp] at hx
      cases hx
    · by_cases hmem : p ∈ payload.items.map OrderItemCreate.productID
      · have := hplaced.sufficient p x hx hmem
        omega
      · rw [quantityOf_requestLines_notMem hmem]
        omega
  · exact hplaced.mem (fun _ => rfl) hlocked
  · rw [hat.holds.commit_lookup, AList.lookup_insert_ne (by simp),
      AList.lookup_insert_ne (by simp), AList.lookup_insert, Option.some_or]
  · rw [hat.holds.commit_lookup, AList.lookup_insert_ne (by simp), AList.lookup_insert,
      Option.some_or, hold]
    rfl
  · rw [hlines, hplaced.lines]
    exact priceItems_lines fun item hitem =>
      (hplaced.found item hitem).imp fun _ h => h.1
  · exact (hpromo s.db.rows hat.present).congr hat.promo

/-! ## update_order and cancel_order -/

/-- The catalogue and the order row are flushed, the items are not. -/
structure OrderFlushed (written : Rows) (known : (k : Key) → Option (Row k))
    (loaded products : ProductMap) (uses : Option (Uuid × Int)) (id : Uuid)
    (order assigned : Order) : Prop where
  catalog : ∃ written₀ known₀, Flushed written₀ known₀ loaded products uses ∧
    ∀ k : Key, k.isCatalog = true → written.lookup k = written₀.lookup k ∧ known k = known₀ k
  items : ∀ id', written.lookup (.items id') = none ∧ known (.items id') = none
  others : ∀ id', id' ≠ id → written.lookup (.order id') = none
  order : (assigned = order ∧ written.lookup (.order id) = none) ∨
    (assigned ≠ order ∧ ∃ o : Order, known (.order id) = some o ∧
      written.lookup (.order id) = some ((orderChange order assigned).apply o).stored)

theorem does_flushOrder {id : Uuid} {order assigned : Order} :
    Does settings request i (Ready i session loaded products uses present)
      (flushOrder id order assigned) fun _ s => ∃ written known,
        OrderFlushed written known loaded products uses id order assigned ∧
          At i session written known present s := by
  refine Discipline.Triple.exists fun written => Discipline.Triple.exists fun known =>
    Discipline.Triple.pure fun hflushed => ?_
  unfold flushOrder
  by_cases hsame : assigned = order
  · rw [if_pos hsame]
    refine does_ret fun s hat =>
      ⟨written, known, ⟨⟨written, known, hflushed, fun _ _ => ⟨rfl, rfl⟩⟩,
      fun id' => ⟨(hflushed.orders id').2, (hflushed.unknown id').2⟩,
      fun id' _ => (hflushed.orders id').1, Or.inl ⟨hsame, (hflushed.orders id).1⟩⟩, hat⟩
  · rw [if_neg hsame]
    have hid : (.order id : Key) ∉ written := AList.lookup_eq_none.mp (hflushed.orders id).1
    refine Discipline.Triple.mono (does_query (moves_updateOrder hid) (by simp))
      (fun _ _ h => h) fun result s _ hpost => ?_
    cases result with
    | error error => trivial
    | ok _ =>
        obtain ⟨o, hat⟩ := hpost
        refine ⟨_, _, ⟨⟨written, known, hflushed, fun k hk => ?_⟩, fun id' => ?_,
          fun id' hid' => ?_, Or.inr ⟨hsame, o, Function.update_self _ _ _,
            AList.lookup_insert _⟩⟩, hat⟩
        · cases k with
          | product p =>
              rw [AList.lookup_insert_ne (by simp), Function.update_of_ne (by simp)]
              exact ⟨rfl, rfl⟩
          | promo q =>
              rw [AList.lookup_insert_ne (by simp), Function.update_of_ne (by simp)]
              exact ⟨rfl, rfl⟩
          | _ => cases hk
        · rw [AList.lookup_insert_ne (by simp), Function.update_of_ne (by simp)]
          exact ⟨(hflushed.orders id').2, (hflushed.unknown id').2⟩
        · rw [AList.lookup_insert_ne (by simpa using hid')]
          exact (hflushed.orders id').1

/-- The order row after the commit. -/
theorem OrderFlushed.order_lookup {id : Uuid} {order assigned : Order}
    (h : OrderFlushed written known loaded products uses id order assigned)
    (hat : At i session written' known' present s)
    (hwritten : written'.lookup (.order id) = written.lookup (.order id))
    (hknown : known' (.order id) = known (.order id)) :
    (s.db.commit i).rows.lookup (.order id) =
      (s.db.rows.lookup (.order id)).map (assignOrder order assigned) := by
  rw [hat.holds.commit_lookup, hwritten]
  rcases h.order with ⟨rfl, hnone⟩ | ⟨hne, o, ho, hlookup⟩
  · rw [hnone, Option.none_or]
    cases s.db.rows.lookup (.order id) with
    | none => rfl
    | some o => rw [Option.map_some, assignOrder, if_pos rfl]
  · rw [hlookup, (hat.holds.locked (.order id) o (hknown.trans ho)).2, Option.some_or,
      Option.map_some, assignOrder, if_neg hne]

theorem lookup_placed {placement : Placement} {items : List OrderItem}
    {requested : List OrderItemCreate}
    (hplaced : Placed (giveBack loaded items) requested placement) (p : Uuid) :
    placement.products.lookup p = (loaded.lookup p).map fun product =>
      product.addStock
        (quantityOf p (itemLines items) - quantityOf p (requestLines requested)) := by
  rw [hplaced.stocks, lookup_giveBack, Option.map_map]
  congr 1
  funext product
  rw [Function.comp_apply, Product.addStock_addStock, Int.sub_eq_add_neg]

/-- The products of the present items are locked. -/
theorem quantityOf_itemLines_notMem {p : Uuid} {items : List OrderItem}
    (hfound : ∀ item ∈ items, ∃ x, loaded.lookup item.productID = some x)
    (hp : loaded.lookup p = none) : quantityOf p (itemLines items) = 0 := by
  refine quantityOf_eq_zero fun hmem => ?_
  obtain ⟨line, hline, rfl⟩ := List.mem_map.mp hmem
  obtain ⟨item, hitem, rfl⟩ := List.mem_map.mp hline
  obtain ⟨x, hx⟩ := hfound item hitem
  rw [hp] at hx
  cases hx

theorem quantityOf_itemLines_nonneg {p : Uuid} {items : List OrderItem}
    (h : ∀ item ∈ items, 0 ≤ item.quantity) : 0 ≤ quantityOf p (itemLines items) := by
  refine quantityOf_nonneg fun line hline => ?_
  obtain ⟨item, hitem, rfl⟩ := List.mem_map.mp hline
  exact h item hitem

theorem PromoKeep.congr {session' : Session} {order assigned : Order}
    (h : PromoKeep session order assigned uses) (hpromo : session'.promo = session.promo) :
    PromoKeep session' order assigned uses := by
  cases h with
  | keep hsame => exact .keep hsame
  | drop q promo hloaded hsession hnone =>
      exact .drop q promo hloaded (hpromo.trans hsession) hnone

theorem PromoReturn.congr {session' : Session} {order : Order}
    (h : PromoReturn session order uses) (hpromo : session'.promo = session.promo) :
    PromoReturn session' order uses := by
  cases h with
  | without hnone => exact .without hnone
  | give q promo hloaded hsession => exact .give q promo hloaded (hpromo.trans hsession)

/-- The writes of `update_order` and its commit. -/
theorem does_updateOrder_finish {subject id : Uuid} {payload : OrderUpdateRequest}
    {placement : Placement} {order assigned : Order} {items : List OrderItem}
    (horder : session.order = some (id, order)) (hitems : session.items = some (id, items))
    (hcreated : order.status = .created) (hexists : .order id ∈ present)
    (hquantity : ∀ item ∈ items, 0 ≤ item.quantity)
    (hfound : ∀ item ∈ items, ∃ x, loaded.lookup item.productID = some x)
    (hplaced : Placed (giveBack loaded items) payload.items placement)
    (hstatus : assigned.status = order.status) (hpromo : PromoKeep session order assigned uses) :
    Does settings (.updateOrder subject id payload) i
      (Ready i session loaded placement.products uses present)
      (updateOrder.finish subject id order items placement assigned) fun _ _ => True := by
  refine does_bind _ does_flushOrder fun _ => ?_
  refine Discipline.Triple.exists fun written => Discipline.Triple.exists fun known =>
    Discipline.Triple.pure fun hflushed => ?_
  have hfresh : (.items id : Key) ∉ written := AList.lookup_eq_none.mp (hflushed.items id).1
  refine does_bind _ (does_query (moves_insertItems hfresh (hflushed.items id).2) (by simp))
    fun _ => ?_
  refine Discipline.Triple.exists fun old => Discipline.Triple.exists fun added =>
    Discipline.Triple.pure fun hlines => Discipline.Triple.pure fun hnew => ?_
  refine does_bind _ (does_query (moves_deleteItems (AList.lookup_insert _)) (by simp))
    fun _ => ?_
  refine does_bind _ (does_query moves_insertOperation (by simp)) fun _ => ?_
  refine Discipline.Triple.exists fun operation => Discipline.Triple.exists fun row => ?_
  refine does_bind _ (does_commit fun s hrows hat => ?_) fun _ => does_orderResponse id
  obtain ⟨written₀, known₀, hcatalog, hsame⟩ := hflushed.catalog
  have hcatalog' : ∀ k : Key, k.isCatalog = true →
      (((written.insert (Key.items id) (old.getD [] ++ added)).insert (Key.items id)
        ((old.getD [] ++ added).filter fun item =>
          decide (item.id ∉ items.map OrderItem.id))).insert (Key.operation operation)
            row).lookup k = written₀.lookup k ∧
      (Function.update known (.items id) old) k = known₀ k := by
    intro k hk
    cases k with
    | product p =>
        rw [AList.lookup_insert_ne (by simp), AList.lookup_insert_ne (by simp),
          AList.lookup_insert_ne (by simp), Function.update_of_ne (by simp)]
        exact hsame _ hk
    | promo q =>
        rw [AList.lookup_insert_ne (by simp), AList.lookup_insert_ne (by simp),
          AList.lookup_insert_ne (by simp), Function.update_of_ne (by simp)]
        exact hsame _ hk
    | _ => cases hk
  have hlocked : ∀ p x, loaded.lookup p = some x →
      s.db.rows.lookup (.product p) = some x := by
    intro p x hx
    refine (hat.holds.locked (.product p) x ?_).2
    rw [(hcatalog' (.product p) rfl).2, hcatalog.locked p x hx]
  have hitemsOf : itemsOf s.db.rows id = old.getD [] := by
    cases hold : old with
    | some before =>
        have hbefore := (hat.holds.locked (.items id) before (by
          rw [Function.update_self, hold])).2
        exact itemsOf_of_lookup hbefore
    | none =>
        have hnone := (hat.holds.inserted (.items id)
          (by simp only [AList.mem_insert, true_or, or_true]) (by
            rw [Function.update_self, hold])).2
        rw [itemsOf, hnone]
  refine .updateOrder uses order assigned items added (hat.order.trans horder)
    (hat.items.trans hitems) hcreated (hat.present _ hexists) ?_ ?_ ?_ hstatus ?_ ?_ ?_
    (hpromo.congr hat.promo)
  · refine hcatalog.orderWrite hat hcatalog' (fun id' hid => ?_) (lookup_placed hplaced)
      (fun p hp => ?_) fun p x hx hstock => ?_
    · rw [AList.lookup_insert_ne (by simp), AList.lookup_insert_ne (by simp),
        AList.lookup_insert_ne (by simp), AList.lookup_insert_ne (by simp),
        AList.lookup_insert_ne (by simpa using hid), AList.lookup_insert_ne (by simpa using hid)]
      exact ⟨hflushed.others id' hid, (hflushed.items id').1⟩
    · rw [quantityOf_itemLines_notMem hfound hp, quantityOf_requestLines_notMem]
      · rfl
      · intro hmem
        obtain ⟨item, hitem, rfl⟩ := List.mem_map.mp hmem
        obtain ⟨x, hx, _⟩ := hplaced.found item hitem
        rw [lookup_giveBack, hp] at hx
        cases hx
    · have hback : 0 ≤ quantityOf p (itemLines items) := quantityOf_itemLines_nonneg hquantity
      by_cases hmem : p ∈ payload.items.map OrderItemCreate.productID
      · have hsufficient := hplaced.sufficient p (x.addStock (quantityOf p (itemLines items)))
          (by rw [lookup_giveBack, hx, Option.map_some]) hmem
        rw [Product.addStock_stock] at hsufficient
        omega
      · rw [quantityOf_requestLines_notMem hmem]
        omega
  · refine hplaced.mem (fun p => ?_) hlocked
    rw [lookup_giveBack, Option.isSome_map]
  · refine hflushed.order_lookup hat ?_ ?_
    · rw [AList.lookup_insert_ne (by simp), AList.lookup_insert_ne (by simp),
        AList.lookup_insert_ne (by simp)]
    · rw [Function.update_of_ne (by simp)]
  · rw [hat.holds.commit_lookup, AList.lookup_insert_ne (by simp), AList.lookup_insert,
      Option.some_or, hitemsOf]
  · rw [hlines, hplaced.lines]
    refine priceItems_lines fun item hitem => (hplaced.found item hitem).imp fun _ h => h.1
  · rw [hitemsOf]
    exact hnew

/-- The write of `cancel_order` and its commit. -/
theorem does_cancelOrder_finish {subject id : Uuid} {order : Order} {items : List OrderItem}
    (horder : session.order = some (id, order)) (hitems : session.items = some (id, items))
    (hactive : order.status.isActive = true)
    (hquantity : ∀ item ∈ items, 0 ≤ item.quantity)
    (hfound : ∀ item ∈ items, ∃ x, loaded.lookup item.productID = some x)
    (hpromo : PromoReturn session order uses) :
    Does settings (.cancelOrder subject id) i
      (Ready i session loaded (giveBack loaded items) uses present)
      (cancelOrder.finish id order) fun _ _ => True := by
  refine does_bind _ does_flushOrder fun _ => ?_
  refine Discipline.Triple.exists fun written => Discipline.Triple.exists fun known =>
    Discipline.Triple.pure fun hflushed => ?_
  refine does_bind _ (does_commit fun s hrows hat => ?_) fun _ => does_orderResponse id
  obtain ⟨written₀, known₀, hcatalog, hsame⟩ := hflushed.catalog
  refine .cancelOrder uses order items (hat.order.trans horder) (hat.items.trans hitems) hactive
    ?_ (hflushed.order_lookup hat rfl rfl) ?_ (hpromo.congr hat.promo)
  · refine hcatalog.orderWrite hat hsame (fun id' hid => ?_) (lookup_giveBack loaded items)
      (fun p hp => quantityOf_itemLines_notMem hfound hp) fun p x _ hstock => ?_
    · exact ⟨hflushed.others id' hid, (hflushed.items id').1⟩
    · have hback : 0 ≤ quantityOf p (itemLines items) := quantityOf_itemLines_nonneg hquantity
      omega
  · rw [hat.holds.commit_lookup, (hflushed.items id).1, Option.none_or]

/-! ## The handlers -/

/-- Where a request starts. -/
abbrev Fresh (i : Nat) : State → Prop := At i .empty ∅ (fun _ => none) []

theorem validatePromoBasic_left {now : Int} {promo : PromoCode} {value : Unit}
    (h : validatePromoBasic now promo false = .ok value) : promo.currentUses < promo.maxUses := by
  unfold validatePromoBasic at h
  by_cases hleft : promo.maxUses ≤ promo.currentUses
  · simp [hleft] at h
  · omega

theorem does_createOrder (subject : Uuid) (payload : OrderCreateRequest) :
    Does settings (.createOrder subject payload) i (Fresh i)
      (createOrder settings subject payload) fun _ _ => True := by
  refine does_bind _ (does_requireRoles _ subject) fun _ => ?_
  refine does_bind _ (does_checkRateLimit subject .createOrder) fun _ => ?_
  refine does_bind _ (does_read (by simp) fun _ _ _ _ h => (answerRead_eq h).2) fun active => ?_
  refine does_raiseIf fun _ => ?_
  refine does_bind _ (does_query (moves_selectProductsForUpdate _) (by simp)) fun products => ?_
  refine Discipline.Triple.pure fun _ => ?_
  refine does_returnApi fun placement hplacement => ?_
  have hplaced := placeItems_placed hplacement
  cases hcode : payload.promoCode with
  | none =>
      refine does_bind _ (does_flushCatalog hplaced.stocks) fun _ => ?_
      refine Discipline.Triple.weaken _ (does_createOrder_finish hplaced rfl rfl
        fun rows _ => ?_) fun s _ hat => ⟨_, _, flushed_stocks _ _, hat⟩
      rw [hcode]
      exact .without rfl
  | some code =>
      refine does_bind (fun result s => result.2.1.currentUses < result.2.1.maxUses ∧
          At i { Session.empty with promo := some (result.1, result.2.1) } ∅
            (knownProducts products) [.promo result.1] s) ?_ fun result => ?_
      · refine does_bind _ (does_query (moves_selectPromoByCode code) (by simp)) fun found => ?_
        refine does_require fun promo hpromo => ?_
        refine does_bind _ does_now fun now => ?_
        refine does_returnApi fun _ hvalid => ?_
        refine does_returnApi fun discount _ => ?_
        subst hpromo
        exact does_ret fun s hat => ⟨validatePromoBasic_left hvalid, hat⟩
      · obtain ⟨q, promo, discount⟩ := result
        refine Discipline.Triple.pure fun hleft => ?_
        refine does_bind _ (does_flushCatalog hplaced.stocks) fun _ => ?_
        refine does_bind _ (does_flushUses (flushed_stocks _ _) q promo _) fun _ => ?_
        rw [if_neg (by omega)]
        refine does_createOrder_finish hplaced rfl rfl fun rows hrows => ?_
        rw [hcode]
        exact .use code q promo rfl (hrows _ List.mem_cons_self) hleft rfl

/-- The order of a request, when the request gets past its loading. -/
theorem does_loadOrder {subject id : Uuid} {user : User} (htarget : request.target = some id) :
    Does settings request i (Fresh i) (loadOrder subject user id) fun order =>
      At i { Session.empty with order := some (id, order) } ∅ (fun _ => none)
        (orderKeys id (some order) ++ []) := by
  refine does_bind _ (does_query (moves_selectOrder htarget rfl rfl) (by simp)) fun found => ?_
  refine does_require fun order horder => ?_
  subst horder
  exact does_raiseIf fun _ => does_ret fun _ h => h

theorem returnedUse_eq (q : Uuid) (promo : PromoCode) :
    (if (if 0 < promo.currentUses then promo.currentUses - 1 else promo.currentUses) =
        promo.currentUses then none
      else some (q, if 0 < promo.currentUses then promo.currentUses - 1
        else promo.currentUses)) = returnedUse q promo := by
  unfold returnedUse
  by_cases hpos : 0 < promo.currentUses
  · simp only [if_pos hpos]
    rw [if_neg (by omega)]
  · simp only [if_neg hpos, if_true]

theorem does_updateOrder (subject id : Uuid) (payload : OrderUpdateRequest) :
    Does settings (.updateOrder subject id payload) i (Fresh i)
      (updateOrder settings subject id payload) fun _ _ => True := by
  refine does_bind _ (does_requireRoles _ subject) fun user => ?_
  refine does_bind _ (does_loadOrder rfl) fun order => ?_
  refine does_raiseIf fun hstatus => ?_
  have hcreated : order.status = .created := by simpa using hstatus
  refine does_bind _ (does_checkRateLimit subject .updateOrder) fun _ => ?_
  refine does_bind _ (does_query (moves_selectItems id) (by simp)) fun items => ?_
  refine Discipline.Triple.pure fun hquantity => ?_
  refine does_bind _ (does_query (moves_selectProductsForUpdate _) (by simp)) fun products => ?_
  refine Discipline.Triple.pure fun hfound => ?_
  have hfound' : ∀ item ∈ items, ∃ x, products.lookup item.productID = some x := by
    intro item hitem
    refine hfound _ ?_ (List.mem_append_left _ (List.mem_map.mpr ⟨item, hitem, rfl⟩))
    exact List.mem_dedup.mpr (List.mem_append_right _ (List.mem_map.mpr ⟨item, hitem, rfl⟩))
  refine does_returnApi fun placement hplacement => ?_
  have hplaced := placeItems_placed hplacement
  have hexists : (.order id : Key) ∈ items.map (fun item => .product item.productID) ++
      (orderKeys id (some order) ++ []) :=
    List.mem_append_right _ (List.mem_append_left _ List.mem_cons_self)
  cases hpromo : order.promoCodeID with
  | none =>
      refine does_bind _ (does_flushCatalog (lookup_placed hplaced)) fun _ => ?_
      refine Discipline.Triple.weaken _ (does_updateOrder_finish rfl rfl hcreated hexists hquantity
        hfound' hplaced rfl (.keep hpromo.symm)) fun s _ hat => ⟨_, _, flushed_stocks _ _, hat⟩
  | some q =>
      refine does_bind _ (does_query (moves_selectPromo q) (by simp)) fun found => ?_
      refine Discipline.Triple.pure fun _ => ?_
      refine does_require fun promo hfoundPromo => ?_
      subst hfoundPromo
      refine does_bind _ does_now fun now => ?_
      refine does_returnApi fun _ _ => ?_
      split
      · refine does_bind _ (does_flushCatalog (lookup_placed hplaced)) fun _ => ?_
        refine does_bind _ (does_flushUses (flushed_stocks _ _) q promo _) fun _ => ?_
        rw [returnedUse_eq]
        exact does_updateOrder_finish rfl rfl hcreated hexists hquantity hfound' hplaced rfl
          (.drop q promo hpromo rfl rfl)
      · refine does_returnApi fun discount _ => ?_
        refine does_bind _ (does_flushCatalog (lookup_placed hplaced)) fun _ => ?_
        refine Discipline.Triple.weaken _ (does_updateOrder_finish rfl rfl hcreated hexists
          hquantity hfound' hplaced rfl (.keep hpromo.symm)) fun s _ hat =>
            ⟨_, _, flushed_stocks _ _, hat⟩

theorem does_cancelOrder (subject id : Uuid) :
    Does settings (.cancelOrder subject id) i (Fresh i) (cancelOrder subject id)
      fun _ _ => True := by
  refine does_bind _ (does_requireRoles _ subject) fun user => ?_
  refine does_bind _ (does_loadOrder rfl) fun order => ?_
  refine does_raiseIf fun hstatus => ?_
  have hactive : order.status.isActive = true := by simpa using hstatus
  refine does_bind _ (does_query (moves_selectItems id) (by simp)) fun items => ?_
  refine Discipline.Triple.pure fun hquantity => ?_
  refine does_bind _ (does_query (moves_selectProductsForUpdate _) (by simp)) fun products => ?_
  refine Discipline.Triple.pure fun hfound => ?_
  have hfound' : ∀ item ∈ items, ∃ x, products.lookup item.productID = some x := by
    intro item hitem
    refine hfound _ (List.mem_map.mpr ⟨item, hitem, rfl⟩) ?_
    exact List.mem_append_left _ (List.mem_map.mpr ⟨item, hitem, rfl⟩)
  cases hpromo : order.promoCodeID with
  | none =>
      refine does_bind _ (does_flushCatalog (lookup_giveBack products items)) fun _ => ?_
      refine Discipline.Triple.weaken _ (does_cancelOrder_finish rfl rfl hactive hquantity
        hfound' (.without hpromo)) fun s _ hat => ⟨_, _, flushed_stocks _ _, hat⟩
  | some q =>
      refine does_bind _ (does_query (moves_selectPromo q) (by simp)) fun found => ?_
      refine Discipline.Triple.pure fun hmissing => ?_
      cases found with
      | none =>
          -- the foreign key of the order says that the promo exists
          refine absurd ?_ (hmissing rfl)
          refine List.mem_append_right _ (List.mem_append_left _ (List.mem_cons_of_mem _ ?_))
          exact List.mem_map.mpr ⟨q, by rw [hpromo]; simp, rfl⟩
      | some promo =>
          refine does_bind _ (does_flushCatalog (lookup_giveBack products items)) fun _ => ?_
          refine does_bind _ (does_flushUses (flushed_stocks _ _) q promo _) fun _ => ?_
          rw [returnedUse_eq]
          exact does_cancelOrder_finish rfl rfl hactive hquantity hfound'
            (.give q promo hpromo rfl)

theorem does_productResponse (id : Uuid) :
    Does settings request i (At i .empty ∅ (fun _ => none) []) (productResponse id)
      fun _ _ => True := by
  refine does_bind _ (does_read (by simp) fun _ _ _ _ h => (answerRead_eq h).2) fun product => ?_
  cases product with
  | none => exact does_fail
  | some product => exact does_ret fun _ _ => trivial

theorem does_productSeller (subject : Uuid) (user : User) (payload : ProductCreate) :
    Does settings request i (Fresh i) (productSeller subject user payload) fun _ => Fresh i := by
  unfold productSeller
  cases payload.sellerID with
  | none => exact does_ret fun _ h => h
  | some sellerID =>
      by_cases hadmin : user.role = .admin
      · simp only [if_pos hadmin]
        refine does_bind _ (does_query (moves_selectUser sellerID) (by simp)) fun seller => ?_
        cases seller with
        | none => exact does_fail
        | some seller =>
            by_cases hseller : seller.role = .seller
            · simp only [if_pos hseller]
              exact does_ret fun _ h => h
            · simp only [if_neg hseller]
              exact does_fail
      · simp only [if_neg hadmin]
        exact does_raiseIf fun _ => does_ret fun _ h => h

/-- The commit of a transaction that has written one row. -/
theorem At.commit_one {k : Key} {row : Row k}
    (hat : At i session ((∅ : Rows).insert k row) known present s) :
    (s.db.commit i).rows.lookup k = some row ∧
      ∀ k', k' ≠ k → (s.db.commit i).rows.lookup k' = s.db.rows.lookup k' := by
  refine ⟨?_, fun k' hk' => ?_⟩
  · rw [hat.holds.commit_lookup, AList.lookup_insert, Option.some_or]
  · rw [hat.holds.commit_lookup, AList.lookup_insert_ne hk', AList.lookup_empty, Option.none_or]

/-- A row that a session has inserted is not committed. -/
theorem At.inserted {k : Key} {row : Row k}
    (hat : At i session ((∅ : Rows).insert k row) (fun _ => none) present s) :
    s.db.rows.lookup k = none :=
  (hat.holds.inserted k ((AList.mem_insert _).mpr (Or.inl rfl)) rfl).2

theorem does_createProduct (subject : Uuid) (payload : ProductCreate) :
    Does settings (.createProduct subject payload) i (Fresh i) (createProduct subject payload)
      fun _ _ => True := by
  refine does_bind _ (does_requireRoles _ subject) fun user => ?_
  refine does_bind _ (does_productSeller subject user payload) fun sellerID => ?_
  refine does_bind _ (does_query moves_insertProduct (by simp)) fun id => ?_
  refine does_bind _ (does_commit fun s _ hat => ?_) fun _ => does_productResponse id
  obtain ⟨hproduct, hothers⟩ := hat.commit_one
  exact .createProduct id _ hat.inserted hproduct payload.nonneg hothers rfl

theorem does_loadProduct (subject : Uuid) (user : User) (id : Uuid) :
    Does settings request i (Fresh i) (loadProduct subject user id) fun _ => Fresh i := by
  refine does_bind _ (does_read (by simp) fun _ _ _ _ h => (answerRead_eq h).2) fun found => ?_
  refine does_require fun product _ => ?_
  exact does_raiseIf fun _ => does_ret fun _ h => h

/-- The flush and the commit of `update_product` and `delete_product`. -/
theorem does_flushProduct {id : Uuid} {change : ProductChange} {next : Unit → Handler Response}
    (hrequest : (∃ subject payload, request = .updateProduct subject id payload) ∨
      ∃ subject, request = .deleteProduct subject id)
    (hassigned : ∀ stock, change.stock = some (some stock) → ∃ subject payload,
      request = .updateProduct subject id payload ∧ payload.stock = .value stock)
    (hnext : Does settings request i (Fresh i) (next ()) fun _ _ => True) :
    Does settings request i (Fresh i)
      (flushProduct id change >>= fun _ => query .commit >>= next) fun _ _ => True := by
  unfold flushProduct
  by_cases hnone : change = ⟨none, none, none, none, none, none⟩
  · simp only [if_pos hnone]
    refine does_bind (fun _ => Fresh i) (does_ret fun _ h => h) fun _ => ?_
    refine does_bind _ (does_commit fun s _ hat => ?_) fun _ => hnext
    have hsame : ∀ k, (s.db.commit i).rows.lookup k = s.db.rows.lookup k := by
      intro k
      rw [hat.holds.commit_lookup, AList.lookup_empty, Option.none_or]
    refine .writeProduct id (fun product => product) hrequest ?_ (fun _ h => h)
      (fun k _ => hsame k) fun _ => Or.inl rfl
    rw [hsame]
    exact Option.map_id.symm ▸ rfl
  · simp only [if_neg hnone]
    refine does_bind _ (does_query (moves_updateProduct (AList.notMem_empty _)) (by simp))
      fun _ => ?_
    refine Discipline.Triple.exists fun product => ?_
    refine does_bind _ (does_commit fun s _ hat => ?_) fun _ => hnext
    obtain ⟨hproduct, hothers⟩ := hat.commit_one
    refine .writeProduct id (fun p => (change.apply p).stored) hrequest ?_ (fun p hp => ?_) hothers
      fun p => ?_
    · rw [hproduct, (hat.holds.locked (.product id) product (Function.update_self _ _ _)).2]
      rfl
    · simp only [Product.stored, ProductChange.apply, column]
      split
      · rename_i stock heq
        obtain ⟨_, payload, _, hpayload⟩ := hassigned stock heq
        exact payload.nonneg stock hpayload
      · exact hp
    · simp only [Product.stored, ProductChange.apply, column]
      split
      · rename_i stock heq
        exact Or.inr (hassigned stock heq)
      · exact Or.inl rfl

theorem does_updateProduct (subject id : Uuid) (payload : ProductUpdate) :
    Does settings (.updateProduct subject id payload) i (Fresh i)
      (updateProduct subject id payload) fun _ _ => True := by
  refine does_bind _ (does_requireRoles _ subject) fun user => ?_
  refine does_bind _ (does_loadProduct subject user id) fun product => ?_
  refine does_flushProduct (Or.inl ⟨subject, payload, rfl⟩) (fun stock hstock => ?_)
    (does_productResponse id)
  refine ⟨subject, payload, rfl, ?_⟩
  simp only [productChange, assignField] at hstock
  split at hstock
  · cases hstock
  · cases hstock
  · rename_i value heq
    simp only [Option.ite_none_left_eq_some, Option.some.injEq] at hstock
    rw [heq, hstock.2]

theorem does_deleteProduct (subject id : Uuid) :
    Does settings (.deleteProduct subject id) i (Fresh i) (deleteProduct subject id)
      fun _ _ => True := by
  refine does_bind _ (does_requireRoles _ subject) fun user => ?_
  refine does_bind _ (does_loadProduct subject user id) fun product => ?_
  exact does_flushProduct (Or.inr ⟨subject, rfl⟩) (fun stock hstock => by cases hstock)
    (does_ret fun _ _ => trivial)

theorem does_createPromoCode (subject : Uuid) (payload : PromoCodeCreate) :
    Does settings (.createPromoCode subject payload) i (Fresh i)
      (createPromoCode subject payload) fun _ _ => True := by
  refine does_bind _ (does_requireRoles _ subject) fun _ => ?_
  refine does_bind _ (does_query moves_insertPromo (by simp)) fun id => ?_
  refine does_bind _ (does_commit fun s _ hat => ?_) fun _ => ?_
  · obtain ⟨hpromo, hothers⟩ := hat.commit_one
    exact .createPromoCode id _ hat.inserted hpromo rfl payload.positive hothers
  · refine does_bind _ (does_read (by simp) fun _ _ _ _ h => (answerRead_eq h).2) fun found => ?_
    cases found with
    | none => exact does_fail
    | some promo => exact does_ret fun _ _ => trivial

/-! ## Soundness -/

theorem handler_does (request : Request) :
    Does settings request i (Fresh i) (handle settings request) fun _ _ => True := by
  cases request with
  | createProduct subject payload => exact does_createProduct subject payload
  | updateProduct subject id payload => exact does_updateProduct subject id payload
  | deleteProduct subject id => exact does_deleteProduct subject id
  | createOrder subject payload => exact does_createOrder subject payload
  | updateOrder subject id payload => exact does_updateOrder subject id payload
  | cancelOrder subject id => exact does_cancelOrder subject id
  | createPromoCode subject payload => exact does_createPromoCode subject payload

/-- Closing a session rolls back what it has not committed. -/
theorem close_undisturbed {j : Nat} (hij : i ≠ j) :
    Undisturbed j s ((service settings).close i s) :=
  ⟨RowStore.rollback_keeps hij, withSession_other hij _, fun _ h => h⟩

theorem sound : discipline.Sound (service settings) where
  rely_refl _ i s := undisturbed_refl i s
  rely_trans _ _ _ _ _ h h' := ⟨h.keeps.trans h'.keeps, h'.session.trans h.session,
    fun k hk => h'.grows k (h.grows k hk)⟩
  guarantee_rely _ _ _ j _ _ hij _ _ h := h.1 j hij
  guarantee_unused _ _ j _ _ hij h hunused :=
    ⟨(h.1 j hij).keeps.idle hunused.1, (h.1 j hij).session.trans hunused.2⟩
  guarantee_answer _ _ _ _ _ _ _ _ _ _ _ := trivial
  close_inv i _ h := ⟨RowStore.rollback_consistent i h.1, h.2⟩
  close_guarantee _ i s _ := by
    refine ⟨fun j hij => close_undisturbed hij, .quiet rfl ?_⟩
    rw [service, withSession_self]
    exact SessionStep.empty _ _
  close_answer _ _ _ _ _ _ := trivial
  answer_stable _ _ _ _ _ _ _ _ := trivial
  outside_inv tick s s' h hinv := by
    simp only [service, Option.some.injEq] at h
    subst h
    exact hinv
  outside_rely tick s s' h _ _ i := by
    simp only [service, Option.some.injEq] at h
    subst h
    exact ⟨RowStore.Keeps.refl i s.db, rfl, fun _ h => h⟩
  outside_unused tick s s' h _ hunused := by
    simp only [service, Option.some.injEq] at h
    subst h
    exact hunused
  handler_safe request i := by
    refine Discipline.Triple.mono (handler_does request) (fun s _ hunused => ?_)
      fun _ _ _ _ => trivial
    refine ⟨hunused.1.holds, ?_, ?_, ?_, fun k hk => by cases hk⟩
    · rw [hunused.2]
    · rw [hunused.2]
    · rw [hunused.2]

end SoaHomework.Marketplace

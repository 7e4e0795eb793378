import SoaHomework.MarketCommits

/-!
# The stock ledger of the marketplace

The stock of a product and the quantities that active orders hold of it add up
to a constant, which only requests for products change. The order handlers
keep the sum as long as the order they act on is still what they have loaded
when they commit. Requests on different orders give them that; two requests on
the same order do not.
-/

namespace SoaHomework.Marketplace

open StatementProgram

def stockOf (rows : Rows) (p : Uuid) : Int :=
  match (rows.lookup (.product p) : Option Product) with
  | some product => product.stock
  | none => 0

/-- The quantity of `p` that an order row holds. -/
def heldWeight (rows : Rows) (p : Uuid) : (k : Key) → Row k → Int
  | .order id, o => if o.status.isActive then quantityOf p (itemLines (itemsOf rows id)) else 0
  | _, _ => 0

/-- The quantities of `p` over the items of all orders in status CREATED or
    PAYMENT_PENDING. -/
def held (rows : Rows) (p : Uuid) : Int := rows.total (heldWeight rows p)

def ledger (rows : Rows) (p : Uuid) : Int := stockOf rows p + held rows p

/-! ## What an effect does to the ledger -/

variable {session : Session} {written rows rows' : Rows} {request : Request}

theorem heldWeight_other {p : Uuid} {k : Key} (hk : ∀ id, k ≠ .order id) (s : Rows) (row : Row k) :
    heldWeight s p k row = 0 := by
  cases k with
  | order id => exact absurd rfl (hk id)
  | _ => rfl

theorem weightAt_held_other {p : Uuid} {k : Key} (hk : ∀ id, k ≠ .order id) (s : Rows) :
    s.weightAt (heldWeight s p) k = 0 := by
  cases hrow : s.lookup k with
  | none => exact AList.weightAt_of_lookup_none hrow
  | some row => rw [AList.weightAt_of_lookup hrow, heldWeight_other hk]

/-- What an order holds depends on its row and its items only. -/
theorem weightAt_held_congr {p id : Uuid}
    (horder : rows'.lookup (.order id) = rows.lookup (.order id))
    (hitems : rows'.lookup (.items id) = rows.lookup (.items id)) :
    rows'.weightAt (heldWeight rows' p) (.order id) =
      rows.weightAt (heldWeight rows p) (.order id) := by
  simp only [AList.weightAt, horder, heldWeight, itemsOf_congr hitems]

/-- When one order changes, what all orders hold changes by what it holds. -/
theorem held_of_others {p : Uuid} (id : Uuid)
    (h : ∀ id', id' ≠ id → rows'.lookup (.order id') = rows.lookup (.order id') ∧
      rows'.lookup (.items id') = rows.lookup (.items id')) :
    held rows' p = held rows p + (rows'.weightAt (heldWeight rows' p) (.order id) -
      rows.weightAt (heldWeight rows p) (.order id)) := by
  refine AList.total_sub_total (Key.order id) fun k hk => ?_
  cases k with
  | order id' =>
      have hne : id' ≠ id := fun heq => hk (by rw [heq])
      exact weightAt_held_congr (h id' hne).1 (h id' hne).2
  | _ => rw [weightAt_held_other (by simp), weightAt_held_other (by simp)]

theorem held_congr {p : Uuid}
    (h : ∀ id, rows'.lookup (.order id) = rows.lookup (.order id) ∧
      rows'.lookup (.items id) = rows.lookup (.items id)) : held rows' p = held rows p := by
  rw [held_of_others 0 fun id _ => h id, weightAt_held_congr (h 0).1 (h 0).2]
  omega

theorem OrderWrite.stockOf {id p : Uuid} {change : Uuid → Int} {uses : Option (Uuid × Int)}
    (h : OrderWrite written rows rows' id change uses)
    (hmissing : rows.lookup (.product p) = none → change p = 0) :
    stockOf rows' p = stockOf rows p + change p := by
  unfold Marketplace.stockOf
  rw [h.products]
  cases hp : rows.lookup (.product p) with
  | none =>
      simp only [Option.map_none]
      rw [hmissing hp]
      rfl
  | some product => rfl

/-- The order and the items that the session has loaded are still committed,
    as far as stocks depend on them. -/
def Current (session : Session) (rows : Rows) : Prop :=
  ∀ id o, session.order = some (id, o) →
    (∃ present, rows.lookup (.order id) = some present ∧ present.status = o.status) ∧
      ∀ items, session.items = some (id, items) → itemsOf rows id = items

theorem quantityOf_missing {p : Uuid} {items : List OrderItemCreate}
    (hfound : ∀ item ∈ items, .product item.productID ∈ rows)
    (hp : rows.lookup (.product p) = none) : quantityOf p (requestLines items) = 0 := by
  refine quantityOf_requestLines_notMem fun hmem => ?_
  obtain ⟨item, hitem, rfl⟩ := List.mem_map.mp hmem
  exact AList.lookup_eq_none.mp hp (hfound item hitem)

theorem WellFormed.quantityOf_missing (h : WellFormed rows) {p id : Uuid}
    (hp : rows.lookup (.product p) = none) : quantityOf p (itemLines (itemsOf rows id)) = 0 := by
  refine quantityOf_eq_zero fun hmem => ?_
  obtain ⟨line, hline, rfl⟩ := List.mem_map.mp hmem
  obtain ⟨item, hitem, rfl⟩ := List.mem_map.mp hline
  exact AList.lookup_eq_none.mp hp (h.product id item hitem)

/-- New items replace the loaded ones when these are still the present ones. -/
theorem filter_replaced {items added : List OrderItem}
    (hnew : ∀ item ∈ added, item.id ∉ items.map OrderItem.id) :
    ((items ++ added).filter fun item => decide (item.id ∉ items.map OrderItem.id)) = added := by
  rw [List.filter_append, List.filter_eq_nil_iff.mpr, List.nil_append,
    List.filter_eq_self.mpr]
  · intro item hitem
    exact decide_eq_true (hnew item hitem)
  · intro item hitem
    have hmem : item.id ∈ items.map OrderItem.id := List.mem_map.mpr ⟨item, hitem, rfl⟩
    simpa using hmem

def Request.isForProduct : Request → Bool
  | .createProduct _ _ => true
  | .updateProduct _ _ _ => true
  | .deleteProduct _ _ => true
  | _ => false

/-- An effect moves the ledger only by the stock that a request for a product
    assigns, if the order of the request is current. -/
theorem Effect.ledger (h : Effect session written rows rows' request)
    (hrows : WellFormed rows) (hcurrent : Current session rows) (p : Uuid) :
    ledger rows' p = ledger rows p +
      if request.isForProduct then stockOf rows' p - stockOf rows p else 0 := by
  unfold Marketplace.ledger
  cases h with
  | createProduct id product _ _ _ hothers =>
      rw [held_congr fun id' => ⟨hothers _ (by simp), hothers _ (by simp)⟩]
      simp only [Request.isForProduct, if_true]
      omega
  | writeProduct id set hrequest _ _ hothers =>
      rw [held_congr fun id' => ⟨hothers _ (by simp), hothers _ (by simp)⟩]
      have hproduct : request.isForProduct = true := by
        rcases hrequest with ⟨_, _, rfl⟩ | ⟨_, rfl⟩
        · rfl
        · rfl
      rw [if_pos hproduct]
      omega
  | createPromoCode id promo _ _ _ _ hothers =>
      rw [held_congr fun id' => ⟨hothers _ (by simp), hothers _ (by simp)⟩]
      simp only [Request.isForProduct, Bool.false_eq_true, if_false, stockOf,
        hothers (.product p) (by simp), Int.add_zero]
  | @createOrder _ payload uses id order items hfresh hwrite hfound horder hitems hlines _ hstatus
      _ =>
      have hheld : rows'.weightAt (heldWeight rows' p) (.order id) =
          quantityOf p (requestLines payload.items) := by
        rw [AList.weightAt_of_lookup horder]
        simp only [heldWeight, hstatus, OrderStatus.isActive, if_true,
          itemsOf_of_lookup hitems, hlines]
      rw [held_of_others id hwrite.others, hheld, AList.weightAt_of_lookup_none hfresh,
        hwrite.stockOf fun hp => by rw [quantityOf_missing hfound hp]; rfl]
      simp only [Request.isForProduct, Bool.false_eq_true, if_false]
      omega
  | @updateOrder _ id payload uses loaded assigned items added hloaded hold hcreated hexists hwrite
      hfound horder hstatus hitems hlines hnew _ =>
      obtain ⟨⟨present, hpresent, hsame⟩, hcurrentItems⟩ := hcurrent id loaded hloaded
      have hnow := hcurrentItems items hold
      rw [hnow] at hitems hnew
      rw [filter_replaced hnew] at hitems
      have hbefore : rows.weightAt (heldWeight rows p) (.order id) =
          quantityOf p (itemLines items) := by
        rw [AList.weightAt_of_lookup hpresent]
        simp only [heldWeight, hsame, hcreated, OrderStatus.isActive, if_true, hnow]
      have hafter : rows'.weightAt (heldWeight rows' p) (.order id) =
          quantityOf p (requestLines payload.items) := by
        rw [hpresent, Option.map_some] at horder
        rw [AList.weightAt_of_lookup horder]
        simp only [heldWeight, assignOrder_status hstatus, hsame, hcreated,
          OrderStatus.isActive, if_true, itemsOf_of_lookup hitems, hlines]
      rw [held_of_others id hwrite.others, hbefore, hafter, hwrite.stockOf fun hp => by
        rw [quantityOf_missing hfound hp, ← hnow, hrows.quantityOf_missing hp]; rfl]
      simp only [Request.isForProduct, Bool.false_eq_true, if_false]
      omega
  | @cancelOrder _ id uses loaded items hloaded hold hactive hwrite horder hitems _ =>
      obtain ⟨⟨present, hpresent, hsame⟩, hcurrentItems⟩ := hcurrent id loaded hloaded
      have hnow := hcurrentItems items hold
      have hbefore : rows.weightAt (heldWeight rows p) (.order id) =
          quantityOf p (itemLines items) := by
        rw [AList.weightAt_of_lookup hpresent]
        simp only [heldWeight, hsame, hactive, if_true, hnow]
      have hafter : rows'.weightAt (heldWeight rows' p) (.order id) = 0 := by
        rw [hpresent, Option.map_some] at horder
        rw [AList.weightAt_of_lookup horder]
        simp only [heldWeight, (assignOrder_canceled hactive).1, OrderStatus.isActive,
          Bool.false_eq_true, if_false]
      rw [held_of_others id hwrite.others, hbefore, hafter, hwrite.stockOf fun hp => by
        rw [← hnow, hrows.quantityOf_missing hp]]
      simp only [Request.isForProduct, Bool.false_eq_true, if_false]
      omega

/-- Orders that a request does not act on stay as they are. -/
theorem Effect.order_kept (h : Effect session written rows rows' request) {id : Uuid}
    (hid : .order id ∈ rows) (htarget : request.target ≠ some id) :
    rows'.lookup (.order id) = rows.lookup (.order id) ∧
      rows'.lookup (.items id) = rows.lookup (.items id) := by
  cases h with
  | createProduct _ _ _ _ _ hothers => exact ⟨hothers _ (by simp), hothers _ (by simp)⟩
  | writeProduct _ _ _ _ _ hothers => exact ⟨hothers _ (by simp), hothers _ (by simp)⟩
  | createPromoCode _ _ _ _ _ _ hothers => exact ⟨hothers _ (by simp), hothers _ (by simp)⟩
  | createOrder uses id' order items hfresh hwrite =>
      refine hwrite.others id ?_
      rintro rfl
      exact AList.lookup_eq_none.mp hfresh hid
  | updateOrder uses loaded assigned items added _ _ _ _ hwrite =>
      exact hwrite.others id fun heq => htarget (by rw [heq]; rfl)
  | cancelOrder uses loaded items _ _ _ hwrite =>
      exact hwrite.others id fun heq => htarget (by rw [heq]; rfl)

/-- A canceled order stays as it is when the orders of requests are current. -/
theorem Effect.canceled_kept (h : Effect session written rows rows' request)
    (hcurrent : Current session rows) {id : Uuid} {o : Order}
    (ho : rows.lookup (.order id) = some o) (hcanceled : o.status = .canceled) :
    rows'.lookup (.order id) = some o ∧
      rows'.lookup (.items id) = rows.lookup (.items id) := by
  have hstatus : ∀ loaded : Order, session.order = some (id, loaded) →
      loaded.status = .canceled := by
    intro loaded hloaded
    obtain ⟨⟨present, hpresent, hsame⟩, _⟩ := hcurrent id loaded hloaded
    rw [ho, Option.some.injEq] at hpresent
    rw [← hsame, ← hpresent, hcanceled]
  have htarget : request.target ≠ some id := by
    intro heq
    cases h with
    | createProduct => cases heq
    | writeProduct _ _ hrequest =>
        rcases hrequest with ⟨_, _, rfl⟩ | ⟨_, rfl⟩
        · cases heq
        · cases heq
    | createPromoCode => cases heq
    | createOrder => cases heq
    | updateOrder uses loaded assigned items added hloaded _ hcreated =>
        cases heq
        rw [hstatus loaded hloaded] at hcreated
        cases hcreated
    | cancelOrder uses loaded items hloaded _ hactive =>
        cases heq
        rw [hstatus loaded hloaded] at hactive
        cases hactive
  rw [← ho]
  exact h.order_kept (mem_of_lookup ho) htarget

end SoaHomework.Marketplace

import SoaHomework.DecimalRounding
import SoaHomework.MarketSequences

/-!
# The amounts of an order

What an order costs follows from its items and its promo code (`Charged`).
Every handler that writes an order recomputes both amounts from the prices of
the products, and requests one after another never leave an amount behind that
belongs to other items or to another promo code. Both amounts are rounded when
they are stored, each for itself.
-/

namespace SoaHomework.Marketplace

open StatementProgram DecimalRounding

/-- The sum of `price_at_order * quantity` over the items of an order. -/
def gross (rows : Rows) (id : Uuid) : ℚ := linesTotal ((itemsOf rows id).map OrderItem.line)

/-- The discount on an amount before it is stored. -/
def exactDiscount (promo : PromoCode) (amount : ℚ) : ℚ :=
  match promo.discountType with
  | .percentage => min (amount * promo.discountValue / 100) (7 / 10 * amount)
  | .fixedAmount => min promo.discountValue amount

/-- The amounts of an order belong to its items and its promo code. -/
structure Charged (rows : Rows) (id : Uuid) (o : Order) : Prop where
  plain : o.promoCodeID = none → o.discountAmount = 0 ∧ o.totalAmount = gross rows id
  promo : ∀ q, o.promoCodeID = some q → ∃ promo : PromoCode,
    rows.lookup (.promo q) = some promo ∧ promo.minOrderAmount ≤ gross rows id ∧
      o.discountAmount = round2 (exactDiscount promo (gross rows id)) ∧
      o.totalAmount = round2 (gross rows id - exactDiscount promo (gross rows id))

/-- A stored sum of money. -/
structure IsMoney (x : ℚ) : Prop where
  nonneg : 0 ≤ x
  cents : round2 x = x

/-- What the columns of prices and discounts of a row hold. -/
def moneyRow : (k : Key) → Row k → Prop
  | .product _, product => IsMoney product.price
  | .promo _, promo => IsMoney promo.discountValue
  | .items _, items => ∀ item ∈ items, IsMoney item.priceAtOrder
  | _, _ => True

def MoneyColumns (rows : Rows) : Prop := ∀ k row, rows.lookup k = some row → moneyRow k row

variable {shown : Set Int} {settings : Settings} {rows₀ rows rows' written : Rows}
  {session : Session} {request : Request} {pool final : MarketPool} {event : MarketEvent}
  {x y : ℚ} {id : Uuid} {o : Order}

/-! ## Money -/

theorem round2_eq (h : 0 ≤ x) : round2 x = roundTo 100 x := by
  rw [round2, if_pos h, roundTo, round_eq, Nat.cast_ofNat]

theorem IsMoney.onGrid (h : IsMoney x) : OnGrid 100 x := by
  rw [← h.cents, round2_eq h.nonneg]
  exact onGrid_roundTo (by decide) x

theorem isMoney_of_onGrid (hnonneg : 0 ≤ x) (h : OnGrid 100 x) : IsMoney x := by
  refine ⟨hnonneg, ?_⟩
  rw [round2_eq hnonneg]
  exact roundTo_of_onGrid (by decide) h

theorem isMoney_round2 (h : 0 ≤ x) : IsMoney (round2 x) := by
  rw [round2_eq h]
  exact isMoney_of_onGrid (roundTo_nonneg (by decide) h) (onGrid_roundTo (by decide) x)

theorem isMoney_zero : IsMoney 0 := isMoney_of_onGrid le_rfl onGrid_zero

theorem linesTotal_isMoney {lines : List ItemLine}
    (h : ∀ line ∈ lines, IsMoney line.priceAtOrder ∧ 0 ≤ line.quantity) :
    IsMoney (linesTotal lines) := by
  apply isMoney_of_onGrid
  · apply List.sum_nonneg
    intro value hvalue
    obtain ⟨line, hline, rfl⟩ := List.mem_map.mp hvalue
    exact mul_nonneg (h line hline).1.nonneg (Int.cast_nonneg (h line hline).2)
  · apply onGrid_sum
    intro value hvalue
    obtain ⟨line, hline, rfl⟩ := List.mem_map.mp hvalue
    exact (h line hline).1.onGrid.mul_int line.quantity

theorem MoneyColumns.item (h : MoneyColumns rows) {item : OrderItem}
    (hitem : item ∈ itemsOf rows id) : IsMoney item.priceAtOrder := by
  unfold itemsOf at hitem
  cases hrow : rows.lookup (.items id) with
  | none =>
      rw [hrow] at hitem
      cases hitem
  | some items =>
      rw [hrow] at hitem
      exact h _ _ hrow item hitem

theorem gross_isMoney (hrows : WellFormed rows) (hmoney : MoneyColumns rows) (id : Uuid) :
    IsMoney (gross rows id) := by
  apply linesTotal_isMoney
  intro line hline
  obtain ⟨item, hitem, rfl⟩ := List.mem_map.mp hline
  exact ⟨hmoney.item hitem, hrows.quantity id item hitem⟩

/-! ## The discount -/

theorem exactDiscount_of_ok {promo : PromoCode} (h : calculateDiscount promo x = .ok y) :
    promo.minOrderAmount ≤ x ∧ y = exactDiscount promo x := by
  unfold calculateDiscount at h
  by_cases hmin : x < promo.minOrderAmount
  · rw [if_pos hmin] at h
    cases h
  · rw [if_neg hmin] at h
    refine ⟨not_lt.mp hmin, ?_⟩
    rw [← Except.ok.inj h]
    unfold exactDiscount
    cases promo.discountType with
    | percentage => simp only [mul_comm (7 / 10 : ℚ) x]
    | fixedAmount => simp only

theorem exactDiscount_nonneg {promo : PromoCode} (hvalue : 0 ≤ promo.discountValue)
    (hx : 0 ≤ x) : 0 ≤ exactDiscount promo x := by
  unfold exactDiscount
  split
  · exact le_min (div_nonneg (mul_nonneg hx hvalue) (by norm_num)) (by linarith)
  · exact le_min hvalue hx

theorem exactDiscount_le (promo : PromoCode) (hx : 0 ≤ x) : exactDiscount promo x ≤ x := by
  unfold exactDiscount
  split
  · exact (min_le_right _ _).trans (by linarith)
  · exact min_le_right _ _

theorem exactDiscount_percentage {promo : PromoCode} (h : promo.discountType = .percentage)
    (x : ℚ) : exactDiscount promo x ≤ 7 / 10 * x := by
  simp only [exactDiscount, h]
  exact min_le_right _ _

/-- The discount does not look at the uses of the promo code. -/
theorem exactDiscount_congr {promo : PromoCode} {uses : Int} (x : ℚ) :
    exactDiscount { promo with currentUses := uses } x = exactDiscount promo x := rfl

/-! ## What the amounts satisfy -/

theorem Charged.isMoney (h : Charged rows id o) (hrows : WellFormed rows)
    (hmoney : MoneyColumns rows) : IsMoney o.totalAmount ∧ IsMoney o.discountAmount := by
  have hgross := gross_isMoney hrows hmoney id
  cases hpromo : o.promoCodeID with
  | none =>
      obtain ⟨hdiscount, htotal⟩ := h.plain hpromo
      rw [hdiscount, htotal]
      exact ⟨hgross, isMoney_zero⟩
  | some q =>
      obtain ⟨promo, hrow, _, hdiscount, htotal⟩ := h.promo q hpromo
      have hvalue := (show IsMoney promo.discountValue from hmoney _ _ hrow).nonneg
      have hle := exactDiscount_le promo hgross.nonneg
      rw [hdiscount, htotal]
      exact ⟨isMoney_round2 (by linarith),
        isMoney_round2 (exactDiscount_nonneg hvalue hgross.nonneg)⟩

theorem Charged.discount_le (h : Charged rows id o) (hrows : WellFormed rows)
    (hmoney : MoneyColumns rows) : o.discountAmount ≤ gross rows id := by
  have hgross := gross_isMoney hrows hmoney id
  cases hpromo : o.promoCodeID with
  | none =>
      rw [(h.plain hpromo).1]
      exact hgross.nonneg
  | some q =>
      obtain ⟨promo, hrow, _, hdiscount, _⟩ := h.promo q hpromo
      have hvalue := (show IsMoney promo.discountValue from hmoney _ _ hrow).nonneg
      rw [hdiscount, round2_eq (exactDiscount_nonneg hvalue hgross.nonneg)]
      exact roundTo_le (by decide) (exactDiscount_le promo hgross.nonneg) hgross.onGrid

/-- A percentage leaves at least three tenths. -/
theorem Charged.percentage_le (h : Charged rows id o) (hrows : WellFormed rows)
    (hmoney : MoneyColumns rows) {q : Uuid} {promo : PromoCode} (hq : o.promoCodeID = some q)
    (hpromo : rows.lookup (.promo q) = some promo)
    (htype : promo.discountType = .percentage) :
    round2 (3 / 10 * gross rows id) ≤ o.totalAmount := by
  have hgross := (gross_isMoney hrows hmoney id).nonneg
  obtain ⟨promo', hrow, _, _, htotal⟩ := h.promo q hq
  rw [hpromo, Option.some.injEq] at hrow
  subst hrow
  have hle := exactDiscount_percentage htype (gross rows id)
  rw [htotal, round2_eq (by linarith), round2_eq (by linarith)]
  exact roundTo_mono (by decide) (by linarith)

/-! ## What a commit does to the amounts -/

def Request.isForOrder : Request → Bool
  | .createOrder _ _ => true
  | .updateOrder _ _ _ => true
  | .cancelOrder _ _ => true
  | _ => false

/-- A request for an order writes no more of the catalogue than stocks and one
    promo counter. -/
theorem Effect.orderWrite (h : Effect session written rows rows' request)
    (horder : request.isForOrder = true) :
    ∃ id change uses, OrderWrite written rows rows' id change uses := by
  cases h with
  | createProduct => cases horder
  | writeProduct id set hrequest =>
      rcases hrequest with ⟨_, _, rfl⟩ | ⟨_, rfl⟩
      · cases horder
      · cases horder
  | createPromoCode => cases horder
  | createOrder _ _ _ _ _ hwrite => exact ⟨_, _, _, hwrite⟩
  | updateOrder _ _ _ _ _ _ _ _ _ hwrite => exact ⟨_, _, _, hwrite⟩
  | cancelOrder _ _ _ _ _ _ hwrite => exact ⟨_, _, _, hwrite⟩

theorem OrderWrite.price {change : Uuid → Int} {uses : Option (Uuid × Int)} {p : Uuid}
    {product' : Product} (h : OrderWrite written rows rows' id change uses)
    (hp : rows'.lookup (.product p) = some product') :
    ∃ product, rows.lookup (.product p) = some product ∧ product'.price = product.price := by
  rw [h.products, Option.map_eq_some_iff] at hp
  obtain ⟨product, hproduct, rfl⟩ := hp
  exact ⟨product, hproduct, rfl⟩

theorem assignUses_terms (uses : Option (Uuid × Int)) (q : Uuid) (promo : PromoCode) :
    ∃ n, assignUses uses q promo = { promo with currentUses := n } := by
  unfold assignUses
  split
  · split
    · exact ⟨_, rfl⟩
    · exact ⟨promo.currentUses, rfl⟩
  · exact ⟨promo.currentUses, rfl⟩

/-- The terms of a promo code never change. -/
theorem Effect.terms (h : Effect session written rows rows' request) {q : Uuid}
    {promo : PromoCode} (hpromo : rows.lookup (.promo q) = some promo) :
    ∃ n, rows'.lookup (.promo q) = some { promo with currentUses := n } := by
  cases hrequest : request.isForOrder with
  | true =>
      obtain ⟨id, change, uses, hwrite⟩ := h.orderWrite hrequest
      obtain ⟨n, hn⟩ := assignUses_terms uses q promo
      exact ⟨n, by rw [hwrite.promos, hpromo, Option.map_some, hn]⟩
  | false =>
      have hsame : rows'.lookup (.promo q) = rows.lookup (.promo q) := by
        cases h with
        | createProduct _ _ _ _ _ hothers => exact hothers _ (by simp)
        | writeProduct _ _ _ _ _ hothers => exact hothers _ (by simp)
        | createPromoCode new _ hfresh _ _ _ hothers =>
            apply hothers
            rintro heq
            rw [← heq, hpromo] at hfresh
            cases hfresh
        | createOrder => cases hrequest
        | updateOrder => cases hrequest
        | cancelOrder => cases hrequest
      exact ⟨promo.currentUses, by rw [hsame, hpromo]⟩

/-- An order whose items and links stay as they are stays charged. -/
theorem Charged.congr (h : Charged rows id o)
    (hitems : rows'.lookup (.items id) = rows.lookup (.items id))
    (hterms : ∀ q promo, rows.lookup (.promo q) = some promo →
      ∃ n, rows'.lookup (.promo q) = some { promo with currentUses := n }) :
    Charged rows' id o := by
  have hgross : gross rows' id = gross rows id := by
    rw [gross, itemsOf_congr hitems, gross]
  constructor
  · rw [hgross]
    exact h.plain
  · intro q hq
    obtain ⟨promo, hrow, hmin, hdiscount, htotal⟩ := h.promo q hq
    obtain ⟨n, hn⟩ := hterms q promo hrow
    refine ⟨_, hn, ?_⟩
    rw [hgross]
    exact ⟨hmin, hdiscount, htotal⟩

/-- What is stored of an order that is billed is charged. -/
theorem Billed.charged {assigned : Order} (h : Billed rows (gross rows' id) assigned)
    (hgross : IsMoney (gross rows' id))
    (hterms : ∀ q promo, rows.lookup (.promo q) = some promo →
      ∃ n, rows'.lookup (.promo q) = some { promo with currentUses := n }) :
    Charged rows' id assigned.stored := by
  cases h with
  | plain hnone htotal hdiscount =>
      constructor
      · intro _
        simp only [Order.stored, hdiscount, htotal]
        exact ⟨isMoney_zero.cents, hgross.cents⟩
      · intro q hq
        rw [show assigned.stored.promoCodeID = assigned.promoCodeID from rfl, hnone] at hq
        cases hq
  | discounted q promo hpromo hrow hdiscount htotal =>
      obtain ⟨hmin, hexact⟩ := exactDiscount_of_ok hdiscount
      constructor
      · intro hnone
        rw [show assigned.stored.promoCodeID = assigned.promoCodeID from rfl, hpromo] at hnone
        cases hnone
      · intro q' hq'
        rw [show assigned.stored.promoCodeID = assigned.promoCodeID from rfl, hpromo,
          Option.some.injEq] at hq'
        subst hq'
        obtain ⟨n, hn⟩ := hterms q promo hrow
        refine ⟨_, hn, hmin, ?_⟩
        simp only [Order.stored, htotal, hexact, exactDiscount_congr, and_self]

/-- An order row with stored amounts takes the assigned values as they are
    stored. -/
theorem assignOrder_eq {order assigned : Order} (hstored : order.stored = order)
    (huser : assigned.userID = order.userID) :
    assignOrder order assigned order = assigned.stored := by
  unfold assignOrder
  split
  · rename_i heq
    rw [heq, hstored]
  · congr 1
    have hcolumn : ∀ {α : Type} [DecidableEq α] (new old : α),
        (if new = old then none else some new : Option α).getD old = new := by
      intro α _ new old
      split
      · rename_i heq
        exact heq.symm
      · rfl
    simp only [OrderChange.apply, orderChange, hcolumn, ← huser]

/-! ## The invariant -/

/-- The money columns are in order, and every order is charged. -/
structure Accounts (rows : Rows) : Prop where
  money : MoneyColumns rows
  charged : ∀ id o, rows.lookup (.order id) = some o → Charged rows id o

theorem gross_of_items {items : List OrderItem} (h : rows.lookup (.items id) = some items) :
    gross rows id = linesTotal (items.map OrderItem.line) := by
  rw [gross, itemsOf_of_lookup h]

theorem MoneyColumns.union (hrows : MoneyColumns rows) (hwritten : MoneyColumns written) :
    MoneyColumns (written ∪ rows) := by
  intro k row hrow
  rw [RowStore.lookup_union_or, Option.or_eq_some_iff] at hrow
  rcases hrow with hnew | ⟨_, hold⟩
  · exact hwritten k row hnew
  · exact hrows k row hold

theorem moneyColumns_single {k : Key} {row : Row k} (h : moneyRow k row) :
    MoneyColumns ((∅ : Rows).insert k row) := by
  intro k' row' hrow'
  by_cases hk : k' = k
  · subst hk
    rw [AList.lookup_insert, Option.some.injEq] at hrow'
    exact hrow' ▸ h
  · rw [AList.lookup_insert_ne hk, AList.lookup_empty] at hrow'
    cases hrow'

theorem Priced.isMoney (hmoney : MoneyColumns rows) {items : List OrderItem}
    (h : Priced rows (items.map OrderItem.line)) {item : OrderItem} (hitem : item ∈ items) :
    IsMoney item.priceAtOrder := by
  obtain ⟨_, product, hproduct, hprice⟩ := h item.line (List.mem_map.mpr ⟨item, hitem, rfl⟩)
  rw [show item.priceAtOrder = product.price from hprice]
  exact hmoney _ _ hproduct

/-- A request for an order keeps the money columns when the items of its order
    do. -/
theorem OrderWrite.money {orderID : Uuid} {change : Uuid → Int} {uses : Option (Uuid × Int)}
    (h : OrderWrite written rows (written ∪ rows) orderID change uses)
    (hmoney : MoneyColumns rows) (hothers : OtherRows written id)
    (hitems : ∀ item ∈ itemsOf (written ∪ rows) id, IsMoney item.priceAtOrder) :
    MoneyColumns (written ∪ rows) := by
  intro k row hrow
  cases k with
  | product p =>
      obtain ⟨product, hproduct, hprice⟩ := h.price hrow
      rw [moneyRow, hprice]
      exact hmoney _ _ hproduct
  | promo q =>
      rw [h.promos, Option.map_eq_some_iff] at hrow
      obtain ⟨promo, hpromo, rfl⟩ := hrow
      obtain ⟨n, hn⟩ := assignUses_terms uses q promo
      rw [hn]
      exact (show IsMoney promo.discountValue from hmoney _ _ hpromo)
  | items id' =>
      by_cases hid : id' = id
      · subst hid
        rw [itemsOf_of_lookup hrow] at hitems
        exact hitems
      · rw [RowStore.lookup_union_of_none (hothers.orders id' hid).2] at hrow
        exact hmoney _ _ hrow
  | _ => trivial

/-- A request for an order keeps the other orders charged. -/
theorem Accounts.of_order (h : Accounts rows)
    (heffect : Effect session written rows (written ∪ rows) request)
    (horder : request.isForOrder = true) (hothers : OtherRows written id)
    (hitems : ∀ item ∈ itemsOf (written ∪ rows) id, IsMoney item.priceAtOrder)
    (hcharged : MoneyColumns (written ∪ rows) → ∀ o,
      (written ∪ rows).lookup (.order id) = some o → Charged (written ∪ rows) id o) :
    Accounts (written ∪ rows) := by
  obtain ⟨orderID, change, uses, hwrite⟩ := heffect.orderWrite horder
  have hmoney := hwrite.money h.money hothers hitems
  refine ⟨hmoney, fun id' o ho => ?_⟩
  by_cases hid : id' = id
  · subst hid
    exact hcharged hmoney o ho
  · rw [RowStore.lookup_union_of_none (hothers.orders id' hid).1] at ho
    apply (h.charged id' o ho).congr
    · exact RowStore.lookup_union_of_none (hothers.orders id' hid).2
    · exact fun q promo hpromo => heffect.terms hpromo

/-- A request that writes one row of the catalogue keeps the orders charged. -/
theorem Accounts.of_catalog (h : Accounts rows) {k : Key} {row : Row k}
    (heffect : Effect session ((∅ : Rows).insert k row) rows ((∅ : Rows).insert k row ∪ rows)
      request) (hk : k.isCatalog = true) (hrow : moneyRow k row) :
    Accounts ((∅ : Rows).insert k row ∪ rows) := by
  have hsame : ∀ k', k'.isCatalog = false →
      ((∅ : Rows).insert k row ∪ rows).lookup k' = rows.lookup k' := by
    intro k' hk'
    apply RowStore.lookup_single_union
    rintro rfl
    rw [hk] at hk'
    cases hk'
  refine ⟨h.money.union (moneyColumns_single hrow), fun id o ho => ?_⟩
  rw [hsame _ rfl] at ho
  apply (h.charged id o ho).congr
  · exact hsame _ rfl
  · exact fun q promo hpromo => heffect.terms hpromo

theorem Order.stored_eq (htotal : round2 o.totalAmount = o.totalAmount)
    (hdiscount : round2 o.discountAmount = o.discountAmount) : o.stored = o := by
  rw [Order.stored, htotal, hdiscount]

/-- What a request commits keeps the accounts. -/
theorem Accounts.commit (h : Accounts rows) (hrows : WellFormed rows)
    (heffect : Effect session written rows (written ∪ rows) request)
    (hcommit : Commit rows written request) : Accounts (written ∪ rows) := by
  have hafter : WellFormed (written ∪ rows) := heffect.wellFormed hrows
  have hstored : ∀ id o, rows.lookup (.order id) = some o → o.stored = o := by
    intro id o ho
    obtain ⟨htotal, hdiscount⟩ := (h.charged id o ho).isMoney hrows h.money
    exact Order.stored_eq htotal.cents hdiscount.cents
  cases hcommit with
  | @createProduct subject payload user sellerID id _ _ _ hwritten =>
      subst hwritten
      apply h.of_catalog heffect rfl
      apply isMoney_round2
      linarith [payload.priced]
  | writeProduct user product subject id change _ _ hrow _ hprice hwritten =>
      rcases hwritten with rfl | rfl
      · rwa [AList.empty_union]
      · apply h.of_catalog heffect rfl
        apply isMoney_round2
        have hold : IsMoney product.price := h.money _ _ hrow
        show 0 ≤ column change.price product.price
        unfold column
        split
        · rename_i value hvalue
          linarith [hprice value hvalue]
        · exact hold.nonneg
  | @createPromoCode subject payload id _ hwritten =>
      subst hwritten
      apply h.of_catalog heffect rfl
      apply isMoney_round2
      linarith [payload.discounted]
  | @createOrder subject payload id order items _ _ hpriced hbilled hfresh horder hitems
      hothers =>
      have hnone : itemsOf rows id = [] := by
        rw [itemsOf, AList.lookup_eq_none.mpr fun hmem => hfresh (hrows.order id hmem),
          Option.getD_none]
      rw [hnone, List.nil_append] at hitems
      have hlookup : (written ∪ rows).lookup (.items id) = some items :=
        RowStore.lookup_union_of_some hitems
      apply h.of_order heffect rfl hothers
      · rw [itemsOf_of_lookup hlookup]
        exact fun item hitem => hpriced.isMoney h.money hitem
      · intro hmoney o ho
        rw [RowStore.lookup_union_of_some horder, Option.some.injEq] at ho
        subst ho
        rw [← gross_of_items hlookup] at hbilled
        exact hbilled.charged (gross_isMoney hafter hmoney id) fun q promo => heffect.terms
  | @updateOrder subject id payload user order assigned items _ hrow _ huser _ _ hpriced hbilled
      horder hitems hnew hothers =>
      rw [filter_replaced hnew] at hitems
      have hlookup : (written ∪ rows).lookup (.items id) = some items :=
        RowStore.lookup_union_of_some hitems
      apply h.of_order heffect rfl hothers
      · rw [itemsOf_of_lookup hlookup]
        exact fun item hitem => hpriced.isMoney h.money hitem
      · intro hmoney o ho
        rw [RowStore.lookup_union_or, hrow, horder, assignOrder_eq (hstored id order hrow) huser,
          Option.some.injEq] at ho
        subst ho
        rw [← gross_of_items hlookup] at hbilled
        exact hbilled.charged (gross_isMoney hafter hmoney id) fun q promo => heffect.terms
  | @cancelOrder subject id user order _ hrow _ _ horder hitems hothers =>
      have hsame : (written ∪ rows).lookup (.items id) = rows.lookup (.items id) :=
        RowStore.lookup_union_of_none hitems
      apply h.of_order heffect rfl hothers
      · rw [itemsOf_congr hsame]
        exact fun item hitem => h.money.item hitem
      · intro hmoney o ho
        have hcanceled : assignOrder order { order with status := .canceled } order =
            ({ order with status := .canceled } : Order).stored :=
          assignOrder_eq (hstored id order hrow) rfl
        rw [RowStore.lookup_union_or, hrow, horder, hcanceled, Option.some.injEq] at ho
        subst ho
        have hcharged := (h.charged id order hrow).congr hsame fun q promo => heffect.terms
        rw [show ({ order with status := .canceled } : Order).stored =
          { order.stored with status := .canceled } from rfl, hstored id order hrow]
        exact ⟨hcharged.plain, hcharged.promo⟩

/-! ## Runs -/

theorem Accounts.next (h : Accounts (rowsOf pool)) (hpool : Sequential shown settings pool)
    (hnext : (service settings).next pool event = some final) : Accounts (rowsOf final) := by
  rcases hpool.step hnext with hrows | ⟨i, request, _, heffect, hcommit, hrows⟩
  · rw [hrows]
    exact h
  · rw [hrows] at heffect ⊢
    exact h.commit hpool.separate.holds.inv.2 heffect hcommit

theorem accounts_steps {first : MarketPool} (hfirst : Sequential shown settings first)
    (haccounts : Accounts (rowsOf first))
    (h : (service settings).Steps (oneByOne shown) first pool) :
    Sequential shown settings pool ∧ Accounts (rowsOf pool) :=
  h.invariant (P := fun pool => Sequential shown settings pool ∧ Accounts (rowsOf pool))
    (fun _ _ _ hpool hturn hnext => ⟨hpool.1.next hturn hnext, hpool.2.next hpool.1 hnext⟩)
    ⟨hfirst, haccounts⟩

def isMoney (x : ℚ) : Bool := decide (0 ≤ x) && decide (round2 x = x)

/-- What `Accounts` asks of one row. -/
def accountsRow (rows : Rows) : (k : Key) → Row k → Bool
  | .product _, product => isMoney product.price
  | .promo _, promo => isMoney promo.discountValue
  | .items _, items => items.all fun item => isMoney item.priceAtOrder
  | .order id, o =>
      match o.promoCodeID with
      | none => decide (o.discountAmount = 0) && decide (o.totalAmount = gross rows id)
      | some q => (rows.lookup (.promo q) : Option PromoCode).any fun promo =>
          decide (promo.minOrderAmount ≤ gross rows id) &&
            decide (o.discountAmount = round2 (exactDiscount promo (gross rows id))) &&
            decide (o.totalAmount = round2 (gross rows id - exactDiscount promo (gross rows id)))
  | _, _ => true

theorem isMoney_of_check (h : isMoney x = true) : IsMoney x := by
  simp only [isMoney, Bool.and_eq_true, decide_eq_true_eq] at h
  exact ⟨h.1, h.2⟩

theorem accounts_of_check
    (h : (rows.entries.all fun entry => accountsRow rows entry.1 entry.2) = true) :
    Accounts rows := by
  have hrow : ∀ k row, rows.lookup k = some row → accountsRow rows k row = true :=
    fun k row hlookup => List.all_eq_true.mp h ⟨k, row⟩ (AList.mem_lookup_iff.mp hlookup)
  constructor
  · intro k row hlookup
    have hcheck := hrow k row hlookup
    cases k with
    | product p => exact isMoney_of_check hcheck
    | promo q => exact isMoney_of_check hcheck
    | items id => exact fun item hitem => isMoney_of_check (List.all_eq_true.mp hcheck item hitem)
    | _ => trivial
  · intro id o hlookup
    have hcheck := hrow _ o hlookup
    constructor
    · intro hnone
      simp only [accountsRow, hnone, Bool.and_eq_true, decide_eq_true_eq] at hcheck
      exact hcheck
    · intro q hq
      simp only [accountsRow, hq] at hcheck
      obtain ⟨promo, hpromo, hamounts⟩ := (Option.any_eq_true _ _).mp hcheck
      simp only [Bool.and_eq_true, decide_eq_true_eq] at hamounts
      exact ⟨promo, hpromo, hamounts.1.1, hamounts.1.2, hamounts.2⟩

/-- A kettle for 3.85 and a promo code for five per cent. -/
def halfCentRows : Rows :=
  ((((∅ : Rows).insert (.user 2) ⟨.user⟩).insert (.user 3) ⟨.seller⟩).insert (.product 10)
    ⟨"Kettle", none, 77 / 20, 5, "kitchen", .active, 3⟩).insert (.promo 20)
    ⟨"FIVE", .percentage, 5, 0, 1, 0, 0, 10, true⟩

/-- The second user orders two kettles with a promo code. -/
def orderWithCode (code : String) : List MarketEvent :=
  [.start (.createOrder 2 (sampleOrder 10 (some code)))] ++
    List.replicate 8 (sampleStep 0 []) ++
    [sampleStep 0 [200], sampleStep 0 [201], sampleStep 0 [202]] ++
    List.replicate 4 (sampleStep 0 [])

theorem steps_of_inTurn {first : MarketPool} {events : List MarketEvent}
    (hpasses : (service settings).passes (fun pool event => pool.inTurn event) first events = true)
    (hrun : (service settings).run first events = some final) :
    (service settings).Steps (oneByOne Set.univ) first final :=
  Service.Steps.of_run_checked _ (fun _ _ hturn => ⟨hturn, fun _ _ => trivial⟩) events hpasses hrun

/-- In every state that requests one after another reach, the amounts of every
    order are those of its present items and promo code, and lie within their
    bounds; and no step changes the terms of a promo code. -/
theorem amounts_follow_items (hrows : Stored rows₀) (haccounts : Accounts rows₀)
    (hreachable : (service settings).Steps (oneByOne Set.univ) (start rows₀) pool) :
    (∀ id o, (rowsOf pool).lookup (.order id) = some o →
      Charged (rowsOf pool) id o ∧
        0 ≤ o.discountAmount ∧ o.discountAmount ≤ gross (rowsOf pool) id ∧
        0 ≤ o.totalAmount ∧
        ∀ q promo, o.promoCodeID = some q → (rowsOf pool).lookup (.promo q) = some promo →
          promo.discountType = .percentage →
          round2 (3 / 10 * gross (rowsOf pool) id) ≤ o.totalAmount) ∧
      ∀ event final, (service settings).next pool event = some final →
        ∀ q promo, (rowsOf pool).lookup (.promo q) = some promo →
          ∃ n, (rowsOf final).lookup (.promo q) = some { promo with currentUses := n } := by
  have hstart : Sequential Set.univ settings (start rows₀) := sequential_start hrows trivial
  obtain ⟨hpool, hfinal⟩ := accounts_steps hstart haccounts hreachable
  have hwell := hpool.separate.holds.inv.2
  constructor
  · intro id o ho
    have hcharged := hfinal.charged id o ho
    obtain ⟨htotal, hdiscount⟩ := hcharged.isMoney hwell hfinal.money
    exact ⟨hcharged, hdiscount.nonneg, hcharged.discount_le hwell hfinal.money, htotal.nonneg,
      fun q promo hq hpromo => hcharged.percentage_le hwell hfinal.money hq hpromo⟩
  · intro event final hnext q promo hpromo
    rcases hpool.step hnext with hsame | ⟨i, request, _, heffect, _⟩
    · exact ⟨promo.currentUses, by rw [hsame, hpromo]⟩
    · exact heffect.terms hpromo

theorem amounts_follow_items_sample : ∃ pool : MarketPool,
    (service ⟨5⟩).run (start halfCentRows) (orderWithCode "FIVE") = some pool ∧
      Charged (rowsOf pool) 200 ⟨2, .created, some 20, 183 / 25, 39 / 100⟩ ∧
      gross (rowsOf pool) 200 = 77 / 10 := by
  obtain ⟨pool, hrun, horder, hgross⟩ := Service.exists_run (fun pool : MarketPool =>
      ((rowsOf pool).lookup (.order 200) : Option Order) =
          some ⟨2, .created, some 20, 183 / 25, 39 / 100⟩ ∧ gross (rowsOf pool) 200 = 77 / 10)
    (show (((service ⟨5⟩).run (start halfCentRows) (orderWithCode "FIVE")).any _) = true by
      decide +kernel)
  refine ⟨pool, hrun, ?_, hgross⟩
  exact ((amounts_follow_items (stored_of_check (by decide +kernel))
    (accounts_of_check (by decide +kernel)) (steps_of_inTurn (by decide +kernel) hrun)).1 200 _
    horder).1

/-! ## Rounding each amount for itself -/

/-- A discount in cents, before it is stored. -/
theorem exactDiscount_cents {promo : PromoCode} (h : promo.discountType = .percentage)
    (hx : 0 ≤ x) : exactDiscount promo x * 100 = x * min promo.discountValue 70 := by
  simp only [exactDiscount, h]
  rw [mul_min_of_nonneg _ _ hx, min_mul_of_nonneg _ _ (by norm_num : (0 : ℚ) ≤ 100)]
  congr 1
  · ring
  · ring

/-- The stored amounts of a promo code add up unless it is a percentage whose
    discount lies half way between two cents. -/
theorem Charged.add_up_iff (h : Charged rows id o) (hrows : WellFormed rows)
    (hmoney : MoneyColumns rows) :
    o.totalAmount + o.discountAmount = gross rows id ↔
      ∀ q promo, o.promoCodeID = some q → rows.lookup (.promo q) = some promo →
        promo.discountType = .percentage →
        Int.fract (gross rows id * min promo.discountValue 70) ≠ 1 / 2 := by
  have hgross := gross_isMoney hrows hmoney id
  cases hpromo : o.promoCodeID with
  | none =>
      obtain ⟨hdiscount, htotal⟩ := h.plain hpromo
      rw [hdiscount, htotal, add_zero]
      exact ⟨fun _ q promo hq => (by cases hq), fun _ => rfl⟩
  | some q =>
      obtain ⟨promo, hrow, _, hdiscount, htotal⟩ := h.promo q hpromo
      have hvalue : IsMoney promo.discountValue := hmoney _ _ hrow
      have hle := exactDiscount_le promo hgross.nonneg
      have hsum := roundTo_add_roundTo_sub (by decide) hgross.onGrid
        (exactDiscount promo (gross rows id))
      rw [hdiscount, htotal, round2_eq (exactDiscount_nonneg hvalue.nonneg hgross.nonneg),
        round2_eq (by linarith), add_comm, hsum, Nat.cast_ofNat]
      cases htype : promo.discountType with
      | percentage =>
          rw [exactDiscount_cents htype hgross.nonneg]
          constructor
          · intro hfract q' promo' hq' hrow' _
            obtain rfl := Option.some.inj hq'
            rw [hrow, Option.some.injEq] at hrow'
            exact hrow' ▸ hfract
          · intro hall
            exact hall q promo rfl hrow htype
      | fixedAmount =>
          -- the smaller of two stored amounts is a whole number of cents
          obtain ⟨n, hn⟩ := hvalue.onGrid.min hgross.onGrid
          have hfract : Int.fract (exactDiscount promo (gross rows id) * 100) = 0 := by
            simp only [exactDiscount, htype]
            rw [← Nat.cast_ofNat, hn, Int.fract_intCast]
          rw [hfract]
          refine ⟨fun _ q' promo' hq' hrow' htype' => ?_, fun _ => by norm_num⟩
          obtain rfl := Option.some.inj hq'
          rw [hrow, Option.some.injEq] at hrow'
          subst hrow'
          rw [htype] at htype'
          cases htype'

/-- In every state that requests one after another reach, the stored total and
    the stored discount of an order add up to what its items cost, unless its
    promo code is a percentage and the discount lies half way between two
    cents. -/
theorem total_and_discount_add_up_iff (hrows : Stored rows₀) (haccounts : Accounts rows₀)
    (hreachable : (service settings).Steps (oneByOne Set.univ) (start rows₀) pool)
    (ho : (rowsOf pool).lookup (.order id) = some o) :
    o.totalAmount + o.discountAmount = gross (rowsOf pool) id ↔
      ∀ q promo, o.promoCodeID = some q → (rowsOf pool).lookup (.promo q) = some promo →
        promo.discountType = .percentage →
        Int.fract (gross (rowsOf pool) id * min promo.discountValue 70) ≠ 1 / 2 := by
  have hstart : Sequential Set.univ settings (start rows₀) := sequential_start hrows trivial
  obtain ⟨hpool, hfinal⟩ := accounts_steps hstart haccounts hreachable
  exact (hfinal.charged id o ho).add_up_iff hpool.separate.holds.inv.2 hfinal.money

theorem total_and_discount_add_up_sample : ∃ pool : MarketPool,
    (service ⟨5⟩).run (start sampleRows) (orderWithCode "KETTLE") = some pool ∧
      (9 : ℚ) + 5 = gross (rowsOf pool) 200 := by
  obtain ⟨pool, hrun, horder, hpromo⟩ := Service.exists_run (fun pool : MarketPool =>
      ((rowsOf pool).lookup (.order 200) : Option Order) = some ⟨2, .created, some 20, 9, 5⟩ ∧
        ((rowsOf pool).lookup (.promo 20) : Option PromoCode).map PromoCode.discountType =
          some .fixedAmount)
    (show (((service ⟨5⟩).run (start sampleRows) (orderWithCode "KETTLE")).any _) = true by
      decide +kernel)
  refine ⟨pool, hrun, ?_⟩
  apply (total_and_discount_add_up_iff (stored_of_check (by decide +kernel))
    (accounts_of_check (by decide +kernel)) (steps_of_inTurn (by decide +kernel) hrun)
    horder).mpr
  intro q promo hq hrow htype
  obtain rfl := Option.some.inj hq
  rw [hrow, Option.map_some, htype] at hpromo
  cases hpromo

/-- Five per cent of 7.70 are 38.5 cents, which are stored as 39; the other
    731.5 cents are stored as 732. -/
theorem total_and_discount_exceed : ∃ (pool : MarketPool) (o : Order),
    Stored halfCentRows ∧ Accounts halfCentRows ∧
      (service ⟨5⟩).run (start halfCentRows) (orderWithCode "FIVE") = some pool ∧
      (service ⟨5⟩).passes (fun pool event => pool.inTurn event) (start halfCentRows)
        (orderWithCode "FIVE") = true ∧
      (rowsOf pool).lookup (.order 200) = some o ∧
      o.totalAmount + o.discountAmount ≠ gross (rowsOf pool) 200 := by
  obtain ⟨pool, hrun, horder, hgross⟩ := Service.exists_run (fun pool : MarketPool =>
      ((rowsOf pool).lookup (.order 200) : Option Order) =
          some ⟨2, .created, some 20, 183 / 25, 39 / 100⟩ ∧ gross (rowsOf pool) 200 = 77 / 10)
    (show (((service ⟨5⟩).run (start halfCentRows) (orderWithCode "FIVE")).any _) = true by
      decide +kernel)
  refine ⟨pool, _, stored_of_check (by decide +kernel), accounts_of_check (by decide +kernel),
    hrun, by decide +kernel, horder, ?_⟩
  rw [hgross]
  norm_num

end SoaHomework.Marketplace

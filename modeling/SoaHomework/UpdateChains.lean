import SoaHomework.MarketAmounts
import SoaHomework.OrderTotals
import SoaHomework.OtherRequests

/-!
# Chains of updates

Updates of one order are path independent. After any chain of them, with requests in
between that change no price, stock or product status, everything is where a single
update to the last list would have put it (`Reached`): a stock has moved by what the
order held at the start less what it holds now. Canceling then gives back what
canceling at the start would have given back.
-/

namespace SoaHomework.Marketplace

open StatementProgram

/-! ## What the columns hold -/

theorem round2_neg {x : ℚ} (h : x < 0) : round2 x = -round2 (-x) := by
  have hneg : ¬ 0 ≤ x := by linarith
  have hpos : 0 ≤ -x := by linarith
  rw [round2, if_neg hneg, round2, if_pos hpos]

theorem round2_round2 (x : ℚ) : round2 (round2 x) = round2 x := by
  have hnonneg : ∀ y : ℚ, 0 ≤ y → round2 (round2 y) = round2 y :=
    fun y hy => (isMoney_round2 hy).cents
  by_cases h : 0 ≤ x
  · exact hnonneg x h
  · have hneg : x < 0 := by linarith
    have hround : 0 ≤ round2 (-x) := (isMoney_round2 (by linarith)).nonneg
    rw [round2_neg hneg]
    rcases hround.lt_or_eq with hpos | hzero
    · rw [round2_neg (by linarith), neg_neg, hnonneg (-x) (by linarith)]
    · rw [← hzero, neg_zero]
      decide +kernel

@[simp] theorem Order.stored_stored (o : Order) : o.stored.stored = o.stored := by
  simp only [Order.stored, round2_round2]

/-- The row holds values of its columns. -/
def inColumns : (k : Key) → Row k → Bool
  | .product _, product => Product.fits product
  | .promo _, promo => PromoCode.fits promo
  | .order _, order => decide (Order.stored order = order) && Order.fits order
  | _, _ => true

def Columns (rows : Rows) : Prop :=
  ∀ (k : Key) (row : Row k), rows.lookup k = some row → inColumns k row = true

theorem columns_of_entries {rows : Rows}
    (h : (rows.entries.all fun entry => inColumns entry.1 entry.2) = true) : Columns rows := by
  intro k row hrow
  exact List.all_eq_true.mp h ⟨k, row⟩ (AList.mem_lookup_iff.mp hrow)

theorem Columns.order {rows : Rows} (h : Columns rows) {id : Uuid} {order : Order}
    (hrow : rows.lookup (.order id) = some order) : order.stored = order ∧ order.fits = true := by
  have hcolumns := h (.order id) order hrow
  simp only [inColumns, Bool.and_eq_true, decide_eq_true_eq] at hcolumns
  exact hcolumns

theorem flushed_eq {loaded : Order} (h : loaded.stored = loaded) (assigned : Order) :
    loaded.flushed assigned = assigned.stored := by
  rw [Order.flushed]
  split
  · rename_i heq
    rw [heq, h]
  · rfl

theorem fits_pred {promo : PromoCode} (h : promo.fits = true) :
    promo.usesLeft = promo.currentUses ∨ (promo.withUses promo.usesLeft).fits = true := by
  rw [PromoCode.usesLeft]
  split
  · right
    simp only [PromoCode.fits, PromoCode.withUses, fitsInteger, Bool.and_eq_true,
      decide_eq_true_eq] at h ⊢
    grind
  · exact Or.inl rfl

/-! ## Offers -/

/-- What a product costs, how many are left and whether it is sold. -/
def Product.offer (product : Product) : ℚ × Int × ProductStatus :=
  (product.price, product.stock, product.status)

/-- The products are the same up to their descriptions. -/
def SameOffers (rows rows' : Rows) : Prop :=
  ∀ p, (rows'.lookup (.product p) : Option Product).map Product.offer =
    (rows.lookup (.product p) : Option Product).map Product.offer

/-- From `rows` to `rows'` the stocks have moved. -/
def OffersMoved (rows rows' : Rows) (moved : Uuid → Int) : Prop :=
  ∀ p, (rows'.lookup (.product p) : Option Product).map Product.offer =
    (rows.lookup (.product p) : Option Product).map fun product =>
      (product.addStock (moved p)).offer

section Offers

variable {rows rows' rows'' : Rows} {moved moved' : Uuid → Int}

theorem SameOffers.still (h : SameOffers rows rows') : OffersMoved rows rows' fun _ => 0 := by
  intro p
  rw [h p]
  simp only [Product.addStock_zero]

theorem OffersMoved.same (h : OffersMoved rows rows' moved) (h' : OffersMoved rows rows'' moved) :
    SameOffers rows' rows'' :=
  fun p => (h' p).trans (h p).symm

theorem OffersMoved.trans (h : OffersMoved rows rows' moved)
    (h' : OffersMoved rows' rows'' moved') :
    OffersMoved rows rows'' fun p => moved p + moved' p := by
  intro p
  have hshift : ∀ (product : Product) (n : Int), (product.addStock n).offer =
      (product.offer.1, product.offer.2.1 + n, product.offer.2.2) := fun _ _ => rfl
  have hmap : ∀ (row : Option Product) (n : Int),
      row.map (fun product => (product.addStock n).offer) =
        (row.map Product.offer).map fun offer => (offer.1, offer.2.1 + n, offer.2.2) := by
    intro row n
    rw [Option.map_map]
    rfl
  rw [h' p, hmap, h p, hmap, hmap, Option.map_map]
  congr 1
  funext offer
  simp only [Function.comp_apply, Int.add_assoc]

theorem OffersMoved.congr (h : OffersMoved rows rows' moved) (heq : ∀ p, moved p = moved' p) :
    OffersMoved rows rows' moved' := by
  intro p
  rw [h p, heq p]

theorem OffersMoved.of_lookup (h : ∀ p, rows'.lookup (.product p) =
    (rows.lookup (.product p) : Option Product).map fun product => product.addStock (moved p)) :
    OffersMoved rows rows' moved := by
  intro p
  rw [h p, Option.map_map]
  rfl

/-- A row and the row it has moved to. -/
theorem OffersMoved.forward (h : OffersMoved rows rows' moved) {p : Uuid} {product : Product}
    (hrow : rows.lookup (.product p) = some product) :
    ∃ product' : Product, rows'.lookup (.product p) = some product' ∧
      product'.offer = (product.addStock (moved p)).offer := by
  have hp := h p
  rw [hrow, Option.map_some] at hp
  exact Option.map_eq_some_iff.mp hp

theorem OffersMoved.backward (h : OffersMoved rows rows' moved) {p : Uuid} {product' : Product}
    (hrow : rows'.lookup (.product p) = some product') :
    ∃ product : Product, rows.lookup (.product p) = some product ∧
      product'.offer = (product.addStock (moved p)).offer := by
  have hp := h p
  rw [hrow, Option.map_some] at hp
  obtain ⟨product, hproduct, heq⟩ := Option.map_eq_some_iff.mp hp.symm
  exact ⟨product, hproduct, heq.symm⟩

theorem fits_of_offer {product product' : Product} (h : product'.offer = product.offer) :
    product'.fits = product.fits := by
  simp only [Product.offer, Prod.mk.injEq] at h
  rw [Product.fits, h.1, h.2.1, Product.fits]

theorem OffersMoved.price (h : OffersMoved rows rows' moved) (p : Uuid) :
    priceIn rows' p = priceIn rows p := by
  have hprice : ∀ rows : Rows, priceIn rows p =
      (((rows.lookup (.product p) : Option Product).map Product.offer).map Prod.fst).getD 0 := by
    intro rows
    rw [priceIn, Option.map_map]
    rfl
  rw [hprice, h p, hprice, Option.map_map, Option.map_map]
  rfl

theorem OffersMoved.listTotal (h : OffersMoved rows rows' moved) (items : List OrderItemCreate) :
    listTotal rows' items = listTotal rows items := by
  simp only [Marketplace.listTotal, h.price]

theorem OffersMoved.pricedLines (h : OffersMoved rows rows' moved)
    (items : List OrderItemCreate) : pricedLines rows' items = pricedLines rows items := by
  simp only [Marketplace.pricedLines, h.price]

end Offers

/-! ## Chains -/

/-- `current_uses` of a promo code -/
def usesOf (rows : Rows) (q : Uuid) : Int :=
  ((rows.lookup (.promo q) : Option PromoCode).map PromoCode.currentUses).getD 0

/-- The order has no promo code, or the lines reach its minimum. -/
def MeetsMinimum (rows : Rows) (order : Order) (items : List OrderItemCreate) : Prop :=
  ∀ q, order.promoCodeID = some q → ∃ promo : PromoCode, rows.lookup (.promo q) = some promo ∧
    promo.minOrderAmount ≤ listTotal rows items

/-- Successful updates of the order from `rows` on, with other requests in between. The
    drift is how far the others have moved the counters of the promo codes. -/
inductive UpdateChain (settings : Settings) (id : Uuid) (order : Order) (rows : Rows) :
    Rows → (Uuid → Int) → Prop where
  | start : UpdateChain settings id order rows rows fun _ => 0
  | update {mid after : Rows} {drift : Uuid → Int} {response : Response} (draw : Draw)
      (subject : Uuid) (payload : OrderUpdateRequest)
      (hchain : UpdateChain settings id order rows mid drift)
      (hmeets : MeetsMinimum rows order payload.items)
      (hserve : (Request.updateOrder subject id payload).serve settings draw mid =
        some (.ok response, after)) : UpdateChain settings id order rows after drift
  | other {mid after : Rows} {drift : Uuid → Int} {result : Except HandlerError Response}
      (draw : Draw) (request : Request) (hchain : UpdateChain settings id order rows mid drift)
      (hother : request.Concerns id → result.isOk = false) (hoffers : SameOffers mid after)
      (hserve : request.serve settings draw mid = some (result, after)) :
      UpdateChain settings id order rows after fun q => drift q + (usesOf after q - usesOf mid q)

def Order.withAmounts (order : Order) (total discount : ℚ) : Order :=
  { order with totalAmount := total, discountAmount := discount }

/-- What a chain has reached. -/
structure Reached (id : Uuid) (order : Order) (rows mid : Rows) (drift : Uuid → Int) : Prop where
  users : ∀ u, mid.lookup (.user u) = rows.lookup (.user u)
  order : ∃ total discount, mid.lookup (.order id) = some (order.withAmounts total discount) ∧
    (order.withAmounts total discount).stored = order.withAmounts total discount ∧
    (order.withAmounts total discount).fits = true
  offers : OffersMoved rows mid fun p => heldIn rows id p - heldIn mid id p
  products : ∀ (p : Uuid) (product : Product), mid.lookup (.product p) = some product →
    product.fits = true
  promos : ∀ (q : Uuid) (promo : PromoCode), rows.lookup (.promo q) = some promo →
    ∃ uses, mid.lookup (.promo q) = some (promo.withUses uses) ∧
      (promo.fits = true → (promo.withUses uses).fits = true)
  uses : ∀ q, usesOf mid q = usesOf rows q + drift q

section Chains

variable {settings : Settings} {id : Uuid} {order : Order} {rows mid after : Rows}
  {drift : Uuid → Int}

theorem Reached.start (hcolumns : Columns rows) (horder : rows.lookup (.order id) = some order) :
    Reached id order rows rows fun _ => 0 := by
  constructor
  · exact fun _ => rfl
  · exact ⟨order.totalAmount, order.discountAmount, horder, hcolumns.order horder⟩
  · apply OffersMoved.of_lookup
    intro p
    simp
  · exact fun p product hrow => hcolumns (.product p) product hrow
  · exact fun q promo hrow => ⟨promo.currentUses, hrow, fun hfits => hfits⟩
  · intro q
    rw [Int.add_zero]

theorem serve_ok {request : Request} {draw : Draw} {response : Response} :
    request.serve settings draw rows = some (.ok response, after) ↔
      ∃ t, Returns draw (handle settings request) ⟨rows, ∅⟩ response t ∧ t.rows = after := by
  rw [serve_eq, Option.map_eq_some_iff]
  constructor
  · rintro ⟨⟨result, t⟩, hrun, heq⟩
    obtain ⟨rfl, rfl⟩ := Prod.mk.inj heq
    exact ⟨t, hrun, rfl⟩
  · rintro ⟨t, hrun, rfl⟩
    exact ⟨(.ok response, t), hrun, rfl⟩

/-- The update at `mid` reaches the minimum there too. -/
theorem Reached.meets (h : Reached id order rows mid drift) {items : List OrderItemCreate}
    (hmeets : MeetsMinimum rows order items) :
    ∀ (current : Order) (q : Uuid) (promo : PromoCode), mid.lookup (.order id) = some current →
      current.promoCodeID = some q → mid.lookup (.promo q) = some promo →
      promo.minOrderAmount ≤ listTotal mid items := by
  intro current q promo hcurrent hq hpromo
  obtain ⟨total, discount, hrow, _⟩ := h.order
  rw [hrow, Option.some.injEq] at hcurrent
  rw [← hcurrent] at hq
  obtain ⟨promo₀, hrow₀, hminimum⟩ := hmeets q hq
  obtain ⟨uses, hmid, _⟩ := h.promos q promo₀ hrow₀
  rw [hmid, Option.some.injEq] at hpromo
  rw [← hpromo, h.offers.listTotal]
  exact hminimum

/-- A successful update of an order whose amounts have changed since. -/
structure UpdatedFrom (settings : Settings) (draw : Draw) (subject id : Uuid)
    (items : List OrderItemCreate) (order current : Order) (amount : ℚ) (mid after : Rows) :
    Prop where
  amounts : ∃ total discount, current = order.withAmounts total discount
  stored : current.stored = current
  fits : current.fits = true
  updatable : Updatable settings draw mid subject id items current amount
  updated : Updated mid id items (order.billed (listTotal mid items) amount).stored after

theorem Reached.updatedFrom (h : Reached id order rows mid drift) {draw : Draw} {subject : Uuid}
    {payload : OrderUpdateRequest} {response : Response}
    (hmeets : MeetsMinimum rows order payload.items)
    (hserve : (Request.updateOrder subject id payload).serve settings draw mid =
      some (.ok response, after)) :
    ∃ current amount,
      UpdatedFrom settings draw subject id payload.items order current amount mid after := by
  obtain ⟨t, hreturns, rfl⟩ := serve_ok.mp hserve
  obtain ⟨current, amount, hupdatable, hend, _⟩ :=
    (returns_updateOrder (h.meets hmeets)).mp hreturns
  obtain ⟨total, discount, hrow, hstored, hfits⟩ := h.order
  have hcurrent := hupdatable.allowed.order
  rw [hrow, Option.some.injEq] at hcurrent
  subst hcurrent
  have hupdated := hupdatable.updated hend
  rw [flushed_eq hstored] at hupdated
  exact ⟨_, amount, ⟨total, discount, rfl⟩, hstored, hfits, hupdatable, hupdated⟩

theorem Updated.heldIn {items : List OrderItemCreate} {order : Order}
    (h : Updated mid id items order after) (p : Uuid) :
    heldIn after id p = quantityOf p (requestLines items) := by
  rw [Marketplace.heldIn, itemLines_of_lines h.items]

theorem Updated.offers {items : List OrderItemCreate} {order : Order}
    (h : Updated mid id items order after) :
    OffersMoved mid after fun p => Marketplace.heldIn mid id p - Marketplace.heldIn after id p := by
  apply (OffersMoved.of_lookup h.products).congr
  intro p
  rw [h.heldIn, movedStock, Marketplace.heldIn]

section UpdatedFrom

variable {draw : Draw} {subject : Uuid} {items : List OrderItemCreate} {current : Order}
  {amount : ℚ}

theorem UpdatedFrom.billed
    (h : UpdatedFrom settings draw subject id items order current amount mid after) (total : ℚ) :
    current.billed total amount = order.billed total amount := by
  obtain ⟨_, _, rfl⟩ := h.amounts
  rfl

/-- The new amounts fit their columns. -/
theorem UpdatedFrom.billed_fits
    (h : UpdatedFrom settings draw subject id items order current amount mid after) :
    (order.billed (listTotal mid items) amount).stored.fits = true := by
  rw [← h.billed]
  rcases h.updatable.amounts with hsame | hfits
  · rw [hsame, h.stored]
    exact h.fits
  · exact hfits

theorem UpdatedFrom.reached
    (h : UpdatedFrom settings draw subject id items order current amount mid after)
    (hmid : Reached id order rows mid drift) : Reached id order rows after drift := by
  constructor
  · intro u
    rw [h.updated.users, hmid.users]
  · have hstored := Order.stored_stored (order.billed (listTotal mid items) amount)
    exact ⟨_, _, h.updated.order, hstored, h.billed_fits⟩
  · apply (hmid.offers.trans h.updated.offers).congr
    intro p
    omega
  · intro p product hrow
    have hlookup := h.updated.products p
    rw [hrow] at hlookup
    obtain ⟨product₀, hrow₀, rfl⟩ := Option.map_eq_some_iff.mp hlookup.symm
    by_cases hmoved : movedStock (itemsOf mid id) items p = 0
    · rw [hmoved, Product.addStock_zero]
      exact hmid.products p product₀ hrow₀
    · exact (moved_update mid id items).storable_iff.mp h.updatable.storable p product₀ hrow₀ hmoved
  · intro q promo hrow
    rw [h.updated.promos]
    exact hmid.promos q promo hrow
  · intro q
    rw [← hmid.uses q, usesOf, h.updated.promos, usesOf]

end UpdatedFrom

theorem Reached.other {draw : Draw} {request : Request} {result : Except HandlerError Response}
    (hmid : Reached id order rows mid drift) (hother : request.Concerns id → result.isOk = false)
    (hoffers : SameOffers mid after)
    (hserve : request.serve settings draw mid = some (result, after)) :
    Reached id order rows after fun q => drift q + (usesOf after q - usesOf mid q) := by
  obtain ⟨total, discount, hrow, hheld⟩ := hmid.order
  have horder : .order id ∈ mid := AList.lookup_isSome.mp (Option.isSome_of_eq_some hrow)
  have hkept : Kept id mid after := by
    by_cases hconcerns : request.Concerns id
    · cases result with
      | ok response => cases hother hconcerns
      | error error =>
          rw [serve_failed horder hconcerns hserve]
          exact .refl id mid
    · exact serve_kept horder hconcerns hserve
  have hitems : ∀ p, heldIn after id p = heldIn mid id p := by
    intro p
    rw [heldIn, itemsOf, hkept.items, heldIn, itemsOf]
  constructor
  · intro u
    rw [hkept.users, hmid.users]
  · exact ⟨total, discount, hkept.order.trans hrow, hheld⟩
  · apply (hmid.offers.trans hoffers.still).congr
    intro p
    rw [hitems, Int.add_zero]
  · intro p product hproduct
    obtain ⟨product₀, hrow₀, heq⟩ := hoffers.still.backward hproduct
    rw [Product.addStock_zero] at heq
    rw [fits_of_offer heq]
    exact hmid.products p product₀ hrow₀
  · intro q promo hpromo
    obtain ⟨uses, hmidPromo, hfits⟩ := hmid.promos q promo hpromo
    obtain ⟨uses', hafter, hfits'⟩ := hkept.promos q _ hmidPromo
    exact ⟨uses', hafter, fun h => hfits' (hfits h)⟩
  · intro q
    have huses := hmid.uses q
    omega

/-- Where a chain is. -/
theorem UpdateChain.reached (h : UpdateChain settings id order rows mid drift)
    (hcolumns : Columns rows) (horder : rows.lookup (.order id) = some order) :
    Reached id order rows mid drift := by
  induction h with
  | start => exact .start hcolumns horder
  | update draw subject payload _ hmeets hserve ih =>
      obtain ⟨current, amount, hupdated⟩ := ih.updatedFrom hmeets hserve
      exact hupdated.reached ih
  | other draw request _ hother hoffers hserve ih => exact ih.other hother hoffers hserve

/-! ## The single update -/

theorem placeable_update {items : List OrderItemCreate} :
    Placeable (giveBack (updateLoaded rows id items) (itemsOf rows id)) items ↔
      ∀ line ∈ requestedTotals items, ∃ product : Product,
        rows.lookup (.product line.1) = some product ∧ product.status = .active ∧
          line.2 ≤ product.stock + heldIn rows id line.1 := by
  have hlookup : ∀ line ∈ requestedTotals items,
      (giveBack (updateLoaded rows id items) (itemsOf rows id)).lookup line.1 =
        (rows.lookup (.product line.1) : Option Product).map fun product =>
          product.addStock (heldIn rows id line.1) := by
    intro line hline
    have hid := (covers_update rows id items).requested line.1
      (List.mem_map.mpr ⟨line, hline, rfl⟩)
    rw [lookup_giveBack, updateLoaded, lookup_productMap, if_pos hid]
    rfl
  constructor
  · intro h line hline
    obtain ⟨product', hproduct', hactive, hstock⟩ := h line hline
    rw [hlookup line hline] at hproduct'
    obtain ⟨product, hproduct, rfl⟩ := Option.map_eq_some_iff.mp hproduct'
    exact ⟨product, hproduct, hactive, hstock⟩
  · intro h line hline
    obtain ⟨product, hproduct, hactive, hstock⟩ := h line hline
    refine ⟨product.addStock (heldIn rows id line.1), ?_, hactive, hstock⟩
    rw [hlookup line hline, hproduct]
    rfl

/-- `uuid4()` gives new keys for `count` items and for the operation. -/
structure Draw.Fresh (draw : Draw) (rows : Rows) (count : Nat) : Prop where
  length : draw.itemIDs.length = count
  nodup : draw.itemIDs.Nodup
  items : ∀ id ∈ draw.itemIDs, id ∉ Marketplace.itemIDs rows
  operation : .operation draw.operationID ∉ rows

theorem validatePromoBasic_withUses (now : Int) (promo : PromoCode) (uses : Int) :
    validatePromoBasic now (promo.withUses uses) true = validatePromoBasic now promo true := by
  cases hactive : promo.active with
  | false => simp [validatePromoBasic, PromoCode.withUses, hactive]
  | true => simp [validatePromoBasic, PromoCode.withUses, hactive]

section Single

variable {draw draw' : Draw} {subject : Uuid} {items : List OrderItemCreate} {current : Order}
  {amount : ℚ}

/-- The promo code gives the same discount on the rows of the start. -/
theorem Reached.keptPromo (hmid : Reached id order rows mid drift)
    (hmeets : MeetsMinimum rows order items) {total discount : ℚ} {now : Int}
    (h : KeptPromo mid now (order.withAmounts total discount) (listTotal mid items) amount) :
    KeptPromo rows now order (listTotal rows items) amount := by
  rw [hmid.offers.listTotal] at h
  cases h with
  | without hnone hdiscount => exact .without hnone hdiscount
  | promo q promo horder hrow hvalid hdiscount =>
      obtain ⟨promo₀, hrow₀, _⟩ := hmeets q horder
      obtain ⟨uses, hmidPromo, _⟩ := hmid.promos q promo₀ hrow₀
      rw [hmidPromo, Option.some.injEq] at hrow
      subst hrow
      rw [validatePromoBasic_withUses] at hvalid
      exact .promo q promo₀ horder hrow₀ hvalid hdiscount

/-- The stocks have moved as a single update moves them. -/
theorem Reached.offersMoved (hmid : Reached id order rows mid drift)
    (h : UpdatedFrom settings draw subject id items order current amount mid after) :
    OffersMoved rows after (movedStock (itemsOf rows id) items) := by
  apply (hmid.offers.trans h.updated.offers).congr
  intro p
  rw [h.updated.heldIn, movedStock, heldIn]
  omega

theorem Reached.updatable (hmid : Reached id order rows mid drift)
    (horder : rows.lookup (.order id) = some order) (hmeets : MeetsMinimum rows order items)
    (h : UpdatedFrom settings draw subject id items order current amount mid after)
    (hclock : draw'.clock = draw.clock) (hfresh : draw'.Fresh rows items.length)
    (hlimit : WithinLimit settings rows draw.clock subject .updateOrder) :
    Updatable settings draw' rows subject id items order amount := by
  obtain ⟨total, discount, rfl⟩ := h.amounts
  have hplaceable : Placeable (giveBack (updateLoaded rows id items) (itemsOf rows id)) items := by
    apply placeable_update.mpr
    intro line hline
    obtain ⟨product, hrow, hactive, hstock⟩ :=
      placeable_update.mp h.updatable.placeable line hline
    obtain ⟨product₀, hrow₀, hoffer⟩ := hmid.offers.backward hrow
    simp only [Product.offer, Prod.mk.injEq, Product.addStock] at hoffer
    refine ⟨product₀, hrow₀, hoffer.2.2.symm.trans hactive, ?_⟩
    omega
  constructor
  · obtain ⟨⟨user, huser, hrole, howner⟩, _⟩ := h.updatable.allowed
    rw [hmid.users] at huser
    exact ⟨⟨user, huser, hrole, howner⟩, horder⟩
  · exact h.updatable.created
  · rw [hclock]
    exact hlimit
  · exact hplaceable
  · rw [hclock]
    exact hmid.keptPromo hmeets h.updatable.promo
  · apply (moved_update rows id items).storable_iff.mpr
    intro p product hrow _
    obtain ⟨product', hrow', hoffer⟩ := (hmid.offersMoved h).forward hrow
    rw [← fits_of_offer hoffer]
    exact (h.reached hmid).products p product' hrow'
  · right
    rw [← hmid.offers.listTotal]
    exact h.billed_fits
  · have hlines := updatePlacement_lines hplaceable
    simp only [freshIDs, Bool.and_eq_true, decide_eq_true_eq, List.all_eq_true]
    rw [hlines, pricedLines, List.length_map]
    exact ⟨⟨hfresh.length, hfresh.nodup⟩, hfresh.items⟩
  · exact hfresh.operation

end Single

/-! ## The cancellation -/

section Cancel

variable {draw : Draw} {subject : Uuid}

theorem fits_canceled (order : Order) : order.canceled.fits = order.fits := rfl

/-- An order that could be canceled at the start can be canceled now. -/
theorem Reached.cancelable (h : Reached id order rows mid drift) (hcolumns : Columns rows)
    (hpromo : ∀ q, order.promoCodeID = some q → .promo q ∈ rows)
    (hcancel : Cancelable rows subject id order) :
    ∃ current, Cancelable mid subject id current := by
  obtain ⟨total, discount, hrow, hstored, hfits⟩ := h.order
  refine ⟨_, ⟨?_, hrow⟩, hcancel.active, ?_, ?_, ?_⟩
  · obtain ⟨user, huser, hrole, howner⟩ := hcancel.allowed.user
    rw [← h.users] at huser
    exact ⟨user, huser, hrole, howner⟩
  · apply (moved_cancel mid id).storable_iff.mpr
    intro p product hproduct _
    obtain ⟨product₀, hrow₀, hoffer⟩ := h.offers.backward hproduct
    have hback : (product.addStock (heldIn mid id p)).offer =
        (product₀.addStock (heldIn rows id p)).offer := by
      simp only [Product.offer, Product.addStock, Prod.mk.injEq] at hoffer ⊢
      refine ⟨hoffer.1, ?_, hoffer.2.2⟩
      omega
    rw [fits_of_offer hback]
    by_cases hheld : heldIn rows id p = 0
    · rw [hheld, Product.addStock_zero]
      exact hcolumns (.product p) product₀ hrow₀
    · exact (moved_cancel rows id).storable_iff.mp hcancel.storable p product₀ hrow₀ hheld
  · intro q promo hloaded
    obtain ⟨q', hq, hmap⟩ := Option.bind_eq_some_iff.mp hloaded
    obtain ⟨promo', hpromo', heq⟩ := Option.map_eq_some_iff.mp hmap
    obtain ⟨rfl, rfl⟩ := Prod.mk.inj heq
    obtain ⟨promo₀, hpromo₀⟩ := Option.isSome_iff_exists.mp (AList.lookup_isSome.mpr (hpromo q' hq))
    obtain ⟨uses, hmid, hfitsUses⟩ := h.promos q' promo₀ hpromo₀
    rw [hmid, Option.some.injEq] at hpromo'
    rw [← hpromo']
    exact fits_pred (hfitsUses (hcolumns (.promo q') promo₀ hpromo₀))
  · have hcanceled : (order.withAmounts total discount).canceled.stored =
        (order.withAmounts total discount).stored.canceled := rfl
    rw [hcanceled, hstored, fits_canceled]
    exact hfits

theorem serve_cancelOrder {response : Response} :
    (Request.cancelOrder subject id).serve settings draw rows = some (.ok response, after) ↔
      ∃ order, Cancelable rows subject id order ∧ (canceledRows rows id order).rows = after ∧
        response = .order ⟨id, order.canceled.stored, itemsOf rows id⟩ := by
  rw [serve_ok]
  constructor
  · rintro ⟨t, hreturns, rfl⟩
    obtain ⟨order, hcancel, rfl, hresponse⟩ := returns_cancelOrder.mp hreturns
    exact ⟨order, hcancel, rfl, hresponse⟩
  · rintro ⟨order, hcancel, hend, hresponse⟩
    exact ⟨_, returns_cancelOrder.mpr ⟨order, hcancel, rfl, hresponse⟩, hend⟩

theorem offersMoved_canceled (rows : Rows) (id : Uuid) (order : Order) :
    OffersMoved rows (canceledRows rows id order).rows (heldIn rows id) :=
  .of_lookup (lookup_canceled order)

end Cancel

end Chains

/-! ## Path independence -/

/-- The products, the order and its lines are the same. -/
structure SameOrder (id : Uuid) (rows rows' : Rows) : Prop where
  offers : SameOffers rows rows'
  order : rows'.lookup (.order id) = rows.lookup (.order id)
  items : ((itemsOf rows' id).map OrderItem.line).Perm ((itemsOf rows id).map OrderItem.line)

/-- A chain of updates leaves what a single update to its last list leaves, and the order
    is canceled after the chain as before it. -/
theorem updates_path_independent {settings : Settings} {id subject : Uuid} {order : Order}
    {rows mid final : Rows} {drift : Uuid → Int} {draw : Draw} {payload : OrderUpdateRequest}
    {response : Response} (hcolumns : Columns rows)
    (horder : rows.lookup (.order id) = some order)
    (hchain : UpdateChain settings id order rows mid drift)
    (hmeets : MeetsMinimum rows order payload.items)
    (hlast : (Request.updateOrder subject id payload).serve settings draw mid =
      some (.ok response, final)) :
    (∀ draw' : Draw, draw'.clock = draw.clock → draw'.Fresh rows payload.items.length →
      WithinLimit settings rows draw.clock subject .updateOrder →
      ∃ response' single, (Request.updateOrder subject id payload).serve settings draw' rows =
          some (.ok response', single) ∧
        SameOrder id single final ∧ ∀ q, usesOf final q = usesOf single q + drift q) ∧
    ∀ (subject' : Uuid) (draw₁ draw₂ : Draw) (response₁ : Response) (canceled : Rows),
      (Request.cancelOrder subject' id).serve settings draw₁ rows =
          some (.ok response₁, canceled) →
        ∃ response₂ canceled', (Request.cancelOrder subject' id).serve settings draw₂ final =
            some (.ok response₂, canceled') ∧ SameOffers canceled canceled' := by
  have hmid := hchain.reached hcolumns horder
  obtain ⟨current, amount, hupdated⟩ := hmid.updatedFrom hmeets hlast
  have hfinal := hupdated.reached hmid
  constructor
  · intro draw' hclock hfresh hlimit
    have hupdatable := hmid.updatable horder hmeets hupdated hclock hfresh hlimit
    have hstored := (hcolumns.order horder).1
    have hminimum := (Reached.start hcolumns horder).meets hmeets
    obtain ⟨response', t, hreturns, hsingle⟩ : ∃ response' t,
        Returns draw' (updateOrder settings subject id payload) ⟨rows, ∅⟩ response' t ∧
          Updated rows id payload.items
            (order.billed (listTotal rows payload.items) amount).stored t.rows := by
      refine ⟨_, _, (returns_updateOrder hminimum).mpr ⟨order, amount, hupdatable, rfl, rfl⟩, ?_⟩
      rw [← flushed_eq hstored]
      exact hupdatable.updated rfl
    refine ⟨response', t.rows, serve_ok.mpr ⟨t, hreturns, rfl⟩, ⟨?_, ?_, ?_⟩, ?_⟩
    · exact (OffersMoved.of_lookup hsingle.products).same (hmid.offersMoved hupdated)
    · rw [hupdated.updated.order, hsingle.order, hmid.offers.listTotal]
    · rw [hupdated.updated.items, hsingle.items, hmid.offers.pricedLines]
    · intro q
      have huses : usesOf t.rows q = usesOf rows q := by
        rw [usesOf, hsingle.promos, usesOf]
      rw [huses, hfinal.uses q]
  · intro subject' draw₁ draw₂ response₁ canceled hserve
    obtain ⟨order', hcancel, rfl, _⟩ := serve_cancelOrder.mp hserve
    obtain rfl : order = order' := Option.some.inj (horder.symm.trans hcancel.allowed.order)
    have hpromo : ∀ q, order.promoCodeID = some q → .promo q ∈ rows := by
      intro q hq
      obtain ⟨promo, hrow, _⟩ := hmeets q hq
      exact AList.lookup_isSome.mp (Option.isSome_of_eq_some hrow)
    obtain ⟨now, hcancel'⟩ := hfinal.cancelable hcolumns hpromo hcancel
    refine ⟨_, _, serve_cancelOrder.mpr ⟨now, hcancel', rfl, rfl⟩, ?_⟩
    apply (offersMoved_canceled rows id order).same
    apply (hfinal.offers.trans (offersMoved_canceled final id now)).congr
    intro p
    omega

/-- An order for one lamp. -/
def orderedLamps : Rows :=
  (lampShop.insert (.order 20) ⟨5, .created, none, 10, 0⟩).insert (.items 20) [⟨40, 2, 1, 10⟩]

def lampUpdate (items : List OrderItemCreate) (h : items.length = 1) : OrderUpdateRequest where
  items := items
  minItems := h.ge
  maxItems := by omega

theorem updates_path_independent_lamps :
    ∃ mid final single canceled canceled',
      ((Request.updateOrder 5 20 (lampUpdate [lamps 2 2] rfl)).serve ⟨5⟩ ⟨600000000, 0, 60, [50]⟩
        orderedLamps).map Prod.snd = some mid ∧
      ((Request.updateOrder 5 20 (lampUpdate [lamps 3 1] rfl)).serve ⟨5⟩
        ⟨1200000000, 0, 61, [51]⟩ mid).map Prod.snd = some final ∧
      ((Request.updateOrder 5 20 (lampUpdate [lamps 3 1] rfl)).serve ⟨5⟩
        ⟨1200000000, 0, 60, [50]⟩ orderedLamps).map Prod.snd = some single ∧
      ((Request.cancelOrder 5 20).serve ⟨5⟩ ⟨0, 0, 0, []⟩ orderedLamps).map Prod.snd =
        some canceled ∧
      ((Request.cancelOrder 5 20).serve ⟨5⟩ ⟨0, 0, 0, []⟩ final).map Prod.snd = some canceled' ∧
      SameOrder 20 single final ∧ SameOffers canceled canceled' := by
  have hcolumns : Columns orderedLamps := columns_of_entries (by decide +kernel)
  have horder : orderedLamps.lookup (.order 20) = some ⟨5, .created, none, 10, 0⟩ := by
    decide +kernel
  have hmeets : ∀ items, MeetsMinimum orderedLamps ⟨5, .created, none, 10, 0⟩ items := by
    intro items q hq
    cases hq
  have hserved : (((Request.updateOrder 5 20 (lampUpdate [lamps 2 2] rfl)).serve ⟨5⟩
      ⟨600000000, 0, 60, [50]⟩ orderedLamps).bind fun served =>
        ((Request.updateOrder 5 20 (lampUpdate [lamps 3 1] rfl)).serve ⟨5⟩
          ⟨1200000000, 0, 61, [51]⟩ served.2).map fun served' =>
            (served.1.isOk, served'.1.isOk)) = some (true, true) := by
    decide +kernel
  have hcancel : (((Request.cancelOrder 5 20).serve ⟨5⟩ ⟨0, 0, 0, []⟩ orderedLamps).map
      fun served => served.1.isOk) = some true := by
    decide +kernel
  obtain ⟨⟨answer, mid⟩, hfirst, hrest⟩ := Option.bind_eq_some_iff.mp hserved
  obtain ⟨⟨answer', final⟩, hlast, hok⟩ := Option.map_eq_some_iff.mp hrest
  obtain ⟨⟨answer₁, canceled⟩, hcanceled, hcancelOk⟩ := Option.map_eq_some_iff.mp hcancel
  cases answer with
  | error error => cases hok
  | ok response =>
      cases answer' with
      | error error => cases hok
      | ok response' =>
          cases answer₁ with
          | error error => cases hcancelOk
          | ok response₁ =>
              have hchain := UpdateChain.start.update _ _ _ (hmeets _) hfirst
              obtain ⟨hsingle, hcancels⟩ := updates_path_independent hcolumns horder hchain
                (hmeets _) hlast
              have hfresh : (Draw.mk 1200000000 0 60 [50]).Fresh orderedLamps 1 :=
                ⟨rfl, by decide, by decide +kernel, by decide +kernel⟩
              have hlimit : WithinLimit ⟨5⟩ orderedLamps 1200000000 5 .updateOrder := by
                intro last hoperation
                have hnone : lastOperation orderedLamps 5 .updateOrder = none := by decide +kernel
                rw [hnone] at hoperation
                cases hoperation
              obtain ⟨_, single, hserve, hsame, _⟩ :=
                hsingle ⟨1200000000, 0, 60, [50]⟩ rfl hfresh hlimit
              obtain ⟨_, canceled', hcanceled', hoffers⟩ :=
                hcancels 5 _ ⟨0, 0, 0, []⟩ _ _ hcanceled
              refine ⟨mid, final, single, canceled, canceled', ?_, ?_, ?_, ?_, ?_, hsame, hoffers⟩
              · rw [hfirst]
                rfl
              · rw [hlast]
                rfl
              · rw [hserve]
                rfl
              · rw [hcanceled]
                rfl
              · rw [hcanceled']
                rfl

end SoaHomework.Marketplace

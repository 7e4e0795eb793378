import SoaHomework.SessionMirrors

/-!
# The order handlers on a session

The order handlers have been modelled twice: as the statements that they send, and on
the session that sends these. With the database to itself a request has the same result
in both models and leaves the same rows (`order_sessions_serve`).
-/

namespace SoaHomework.OrderSessions

open StatementProgram FallibleState OrmSession Marketplace

variable {draw : Draw} {rows : Rows} {id : Uuid} {s s' : Session Key Row} {moved : Uuid → Int}

/-! ## Creating an order -/

theorem Stocked.unassigned (h : Stocked rows moved s) {n : Nat} (hn : 0 < n) :
    Unassigned rows s.objects n := by
  rintro k rfl
  exact h.others k hn

theorem Over.add (hs : Over rows s) {k : Key} (hk : k ∉ rows) (row : Row k) :
    Over rows { s.assign k row with added := k :: s.added } := by
  refine ⟨hs.database, hs.current, hs.active, fun k' hk' => ?_⟩
  rcases List.mem_cons.mp hk' with rfl | hmem
  · exact hk
  · exact hs.added k' hmem

section Create

variable {subject : Uuid} {payload : OrderCreateRequest}

/-- What the keys that the request draws are good for. -/
theorem fresh_of_supplies {count : Nat} {lines : List ItemLine} {row : Bool}
    (h : draw.Supplies ⟨row, true, some count⟩ rows) (hlength : lines.length = count) :
    freshIDs rows draw.itemIDs lines = true ∧
      (Draws.of draw).items lines = newItems draw.itemIDs lines := by
  obtain ⟨hids, hnodup, hnew⟩ := h.items count rfl
  refine ⟨?_, items_of (hids.trans hlength.symm)⟩
  simp only [freshIDs, hids, hlength, hnodup, decide_true, Bool.and_self, Bool.true_and,
    List.all_eq_true, decide_eq_true_eq]
  exact hnew

/-- The objects with those of a new order. -/
def created (draw : Draw) (subject : Uuid) (order : Order) (lines : List ItemLine)
    (objects : Rows) : Rows :=
  ((objects.insert (.order draw.id) order).insert (.items draw.id)
    (newItems draw.itemIDs lines)).insert (.operation draw.operationID)
      ⟨subject, .createOrder, draw.clock⟩

/-- What has been assigned for a new order, beside stocks and a promo code. -/
structure Creates (draw : Draw) (subject : Uuid) (rows objects : Rows) (order : Order)
    (lines : List ItemLine) : Prop where
  order : Assigned rows objects (.order draw.id) order
  items : Assigned rows objects (.items draw.id) (newItems draw.itemIDs lines)
  operation : Assigned rows objects (.operation draw.operationID)
    ⟨subject, .createOrder, draw.clock⟩
  users : Unassigned rows objects 5

section Created

variable (objects : Rows) (order : Order) (lines : List ItemLine)

theorem unassigned_created {n : Nat} (hn : n < 2 ∨ n = 5) :
    Unassigned objects (created draw subject order lines objects) n := by
  have horder : Unassigned objects (objects.insert (.order draw.id) order) n :=
    unassigned_insert _ _ _ (by simp only [tableOf]; omega)
  refine (horder.trans (unassigned_insert _ _ _ ?_)).trans (unassigned_insert _ _ _ ?_)
  · simp only [tableOf]
    omega
  · simp only [tableOf]
    omega

theorem creates_created (h : ∀ n, 1 < n → Unassigned rows objects n) :
    Creates draw subject rows (created draw subject order lines objects) order lines := by
  have hitems : ∀ (rows' : Rows) {n : Nat}, n ≠ 3 →
      Unassigned rows' (rows'.insert (.items draw.id) (newItems draw.itemIDs lines)) n :=
    fun rows' _ hn => unassigned_insert rows' _ _ hn.symm
  have hoperation : ∀ (rows' : Rows) {n : Nat}, n ≠ 4 → Unassigned rows'
      (rows'.insert (.operation draw.operationID) ⟨subject, .createOrder, draw.clock⟩) n :=
    fun rows' _ hn => unassigned_insert rows' _ _ hn.symm
  have horder : ∀ {n : Nat}, 2 < n → Unassigned rows (objects.insert (.order draw.id) order) n :=
    fun {n} hn => (h n (by omega)).trans (unassigned_insert _ _ _ (by simp only [tableOf]; omega))
  constructor
  · refine Assigned.trans (Assigned.trans ?_ (hitems _ (by simp [tableOf])))
      (hoperation _ (by simp [tableOf]))
    exact Unassigned.assign (k := .order draw.id) (h 2 (by decide)) order
  · refine Assigned.trans ?_ (hoperation _ (by simp [tableOf]))
    exact Unassigned.assign (k := .items draw.id) (horder (by simp [tableOf])) _
  · exact Unassigned.assign (k := .operation draw.operationID)
      ((horder (by simp [tableOf])).trans (hitems _ (by simp [tableOf]))) _
  · exact (h 5 (by decide)).trans (unassigned_created objects order lines (Or.inr rfl))

end Created

theorem Creates.finishes {objects : Rows} {placement : Placement} {order : Order}
    (h : Creates draw subject rows objects order placement.lines) (hheld : Held rows)
    (hrows : WellFormed rows)
    (hsupplies : draw.Supplies (Request.createOrder subject payload).keys rows)
    (hlength : placement.lines.length = payload.items.length) :
    Finishes draw rows objects draw.id 2
      (Marketplace.createOrder.finish subject placement order) := by
  obtain ⟨hfresh, _⟩ := fresh_of_supplies hsupplies hlength
  have horder : .order draw.id ∉ rows := (hsupplies.row rfl).1
  have hitems : .items draw.id ∉ rows := mt (hrows.order draw.id) horder
  refine Finishes.bind (writes_newOrder hheld horder h.order) ?_
  refine Finishes.bind (writes_items hheld hitems hfresh h.items) ?_
  refine Finishes.bind (writes_operation hheld (hsupplies.operation rfl) h.operation) ?_
  exact finishes_commit hheld h.users (mem_of_lookup h.order.row)

/-- The objects that `create_order` adds. -/
theorem mirrors_adds {p : Handler Response} {order : Order} {lines : List ItemLine}
    (hs : Over rows s) (hrows : WellFormed rows)
    (hsupplies : draw.Supplies (Request.createOrder subject payload).keys rows)
    (hlength : lines.length = payload.items.length)
    (hp : Finishes draw rows (created draw subject order lines s.objects) draw.id 0 p) :
    Mirrors rows s (do
      add (.order draw.id) order
      add (.items draw.id) ((Draws.of draw).items lines)
      add (.operation draw.operationID) ⟨subject, .createOrder, draw.clock⟩)
      (outcomeOf draw rows p) fun _ => Ready rows draw.id := by
  obtain ⟨_, hitems⟩ := fresh_of_supplies hsupplies hlength
  have horder : .order draw.id ∉ rows := (hsupplies.row rfl).1
  have hlines : .items draw.id ∉ rows := mt (hrows.order draw.id) horder
  have hover := ((hs.add horder order).add hlines (newItems draw.itemIDs lines)).add
    (hsupplies.operation rfl) ⟨subject, .createOrder, draw.clock⟩
  rw [hitems]
  refine .returns () _ rfl (Finishes.ready ?_ hover)
  rwa [Session.objects_add, Session.objects_add, Session.objects_add]

theorem mirrors_createOrder (settings : Settings) (hheld : Held rows) (hrows : WellFormed rows)
    (hs : Over rows s) (hpending : s.pending = ∅)
    (hsupplies : draw.Supplies (Request.createOrder subject payload).keys rows) :
    Mirrors rows s (requireRoles [.user, .admin] subject >>= fun _ =>
        createOrder settings (Draws.of draw) subject payload)
      (outcomeOf draw rows (Marketplace.createOrder settings subject payload)) Answers := by
  have hactive : answerOf rows (.selectActiveOrder subject) = some (activeOrder rows subject) := rfl
  have hproducts : answerOf rows (.selectProductsForUpdate
      ((requestedTotals payload.items).map Prod.fst)) =
        some (productMap rows ((requestedTotals payload.items).map Prod.fst)) := rfl
  rw [Marketplace.createOrder]
  refine Mirrors.bind (hs.requireRoles _) ?_
  rintro _ _ _ ⟨rfl, rfl⟩
  refine mirrors_inTransactionContext hheld hs hpending fun s₁ hs₁ hobjects => ?_
  refine Mirrors.bind (hs₁.checkRateLimit _ _) ?_
  rintro _ _ _ rfl
  refine Mirrors.bind (hs₁.select hactive) ?_
  rintro _ _ _ ⟨rfl, rfl, rfl⟩
  refine Mirrors.bind (hs₁.raiseIf _ _) ?_
  rintro _ _ _ ⟨_, rfl⟩
  refine Mirrors.bind (hs₁.select hproducts) ?_
  rintro _ _ _ ⟨rfl, rfl, rfl⟩
  refine Mirrors.bind ((hs₁.stocked hobjects).placeItems (loaded_productMap rows _)
    fun _ hp => hp) ?_
  rintro _ placement s₂ ⟨rfl, hlength, hstocked, hloaded⟩
  cases payload.promoCode with
  | none =>
      refine Mirrors.session rfl (mirrors_adds hstocked.toOver hrows hsupplies hlength ?_)
      refine Finishes.bind (writes_stocks hheld (hstocked.products.trans
        (unassigned_created _ _ _ (by decide))) hloaded) ?_
      refine Finishes.unassigned hheld ((hstocked.unassigned (by decide)).trans
        (unassigned_created _ _ _ (by decide))) ?_
      exact (creates_created _ _ _ fun n hn => hstocked.unassigned (by omega)).finishes hheld hrows
        hsupplies hlength
  | some code =>
      refine Mirrors.bind (hstocked.toOver.newOrder code _) ?_
      rintro _ ⟨promoID, promo, discount⟩ _ ⟨hpromo, rfl, rfl⟩
      refine mirrors_adds (hstocked.toOver.assign _ _) hrows hsupplies hlength ?_
      rw [Session.objects_assign]
      have hother : ∀ n, n ≠ 1 → Unassigned s₂.objects (s₂.objects.insert (.promo promoID)
          (promo.withUses (promo.currentUses + 1))) n :=
        fun n hn => unassigned_insert _ _ _ hn.symm
      have huses : Assigned rows (s₂.objects.insert (.promo promoID)
          (promo.withUses (promo.currentUses + 1))) (.promo promoID) _ :=
        Unassigned.assign (hstocked.unassigned (by simp [tableOf])) _
      refine Finishes.bind (writes_stocks hheld ((hstocked.products.trans
        (hother 0 (by decide))).trans (unassigned_created _ _ _ (by decide))) hloaded) ?_
      refine Finishes.bind (writes_uses hheld hpromo (huses.trans
        (unassigned_created _ _ _ (by simp [tableOf])))) ?_
      refine (creates_created _ _ _ fun n hn => ?_).finishes hheld hrows hsupplies hlength
      exact (hstocked.unassigned (by omega)).trans (hother n (by omega))

end Create

/-! ## Canceling an order -/

section Cancel

variable {subject : Uuid} {loaded assigned : Order}

/-- The use of the promo code that the session gives back. -/
theorem run_releaseUse (hs : Over rows s) {promoID : Uuid} {promo : PromoCode}
    (hrow : rows.lookup (.promo promoID) = some promo) (h : Unassigned rows s.objects 1) :
    ∃ s', run (releaseUse promoID promo) s = (.ok (), s') ∧ Over rows s' ∧
      Assigned rows s'.objects (.promo promoID) (promo.withUses promo.usesLeft) ∧
        ∀ n, n ≠ 1 → Unassigned s.objects s'.objects n := by
  rw [releaseUse, PromoCode.usesLeft]
  by_cases huses : 0 < promo.currentUses
  · rw [if_pos huses, if_pos huses]
    refine ⟨_, run_assign _ _ _, hs.assign _ _, ?_, fun n hn => unassigned_assign _ _ _ hn.symm⟩
    exact Unassigned.assigned (k := .promo promoID) h _
  · rw [if_neg huses, if_neg huses]
    exact ⟨s, rfl, hs, ⟨(h (.promo promoID) rfl).trans hrow, fun k hk _ => h k hk⟩,
      fun n _ k _ => rfl⟩

theorem finishes_canceled {objects : Rows} (hheld : Held rows)
    (hrow : rows.lookup (.order id) = some loaded)
    (horder : Assigned rows objects (.order id) { loaded with status := .canceled })
    (hothers : ∀ n, 2 < n → Unassigned rows objects n) :
    Finishes draw rows objects id 2 (Marketplace.cancelOrder.finish id loaded) := by
  refine Finishes.bind (writes_order hheld hrow rfl horder) ?_
  refine Finishes.unassigned hheld (hothers 3 (by decide)) ?_
  refine Finishes.unassigned hheld (hothers 4 (by decide)) ?_
  exact finishes_commit hheld (hothers 5 (by decide)) (mem_of_lookup horder.row)

/-- The status is assigned last. -/
theorem mirrors_canceled {p : Handler Response} (hheld : Held rows) (hs : Over rows s)
    (hrow : rows.lookup (.order id) = some loaded)
    (hothers : ∀ n, 1 < n → Unassigned rows s.objects n)
    (hp : ∀ objects, (∀ n, n < 2 → Unassigned s.objects objects n) →
      Finishes draw rows objects id 2 (Marketplace.cancelOrder.finish id loaded) →
        Finishes draw rows objects id 0 p) :
    Mirrors rows s (assign (.order id) { loaded with status := .canceled })
      (outcomeOf draw rows p) fun _ => Ready rows id := by
  refine .returns () _ (run_assign _ _ _) (Finishes.ready (hp _ ?_ ?_) (hs.assign _ _))
  · exact fun n hn => unassigned_assign _ _ _ (by simp only [tableOf]; omega)
  · refine finishes_canceled hheld hrow ?_ fun n hn => ?_
    · exact Unassigned.assigned (k := .order id) (hothers 2 (by decide)) _
    · exact (hothers n (by omega)).trans
        (unassigned_assign _ _ _ (by simp only [tableOf]; omega))

theorem mirrors_cancelOrder (hheld : Held rows) (hs : Over rows s) (hpending : s.pending = ∅) :
    Mirrors rows s (requireRoles [.user, .admin] subject >>= fun user =>
        cancelOrder subject user id)
      (outcomeOf draw rows (Marketplace.cancelOrder subject id)) Answers := by
  have hread : answerOf rows (.selectItems id) = some (itemsOf rows id) := rfl
  have hproducts : answerOf rows (.selectProductsForUpdate
      ((itemsOf rows id).map OrderItem.productID)) =
        some (productMap rows ((itemsOf rows id).map OrderItem.productID)) := rfl
  have hids : ∀ item ∈ itemsOf rows id,
      item.productID ∈ (itemsOf rows id).map OrderItem.productID :=
    fun item hitem => List.mem_map.mpr ⟨item, hitem, rfl⟩
  rw [Marketplace.cancelOrder]
  refine Mirrors.bind (hs.requireRoles _) ?_
  rintro user _ _ ⟨rfl, rfl⟩
  refine Mirrors.bind (hs.loadOrder user) ?_
  rintro order _ _ ⟨hrow, rfl, rfl⟩
  refine Mirrors.bind (hs.raiseIf _ _) ?_
  rintro _ _ _ ⟨_, rfl⟩
  refine mirrors_inTransactionContext hheld hs hpending fun s₁ hs₁ hobjects => ?_
  refine Mirrors.bind (hs₁.select hread) ?_
  rintro _ _ _ ⟨rfl, rfl, rfl⟩
  refine Mirrors.bind (hs₁.select hproducts) ?_
  rintro _ _ _ ⟨rfl, rfl, rfl⟩
  obtain ⟨s₂, hreturned, hstocked⟩ := run_giveBack (hs₁.stocked hobjects) hids
  have hloaded := (loaded_productMap rows _).giveBack hids
  have hflush : ∀ {objects : Rows} {next : Handler Response},
      Unassigned s₂.objects objects 0 → Finishes draw rows objects id 1 next →
        Finishes draw rows objects id 0 (flushStocks (changedStocks _ _) >>= fun _ => next) :=
    fun hsame hnext =>
      Finishes.bind (writes_stocks hheld (hstocked.products.trans hsame) hloaded) hnext
  -- no use of a promo code is given back
  have hunused : ∀ (objects : Rows) {next : Handler Response},
      (∀ n, n < 2 → Unassigned s₂.objects objects n) → Finishes draw rows objects id 2 next →
        Finishes draw rows objects id 0 (flushStocks (changedStocks _ _) >>= fun _ => next) :=
    fun objects _ hsame hfinish => hflush (hsame 0 (by decide)) (Finishes.unassigned hheld
      ((hstocked.unassigned (by decide)).trans (hsame 1 (by decide))) hfinish)
  have hothers : ∀ n, 1 < n → Unassigned rows s₂.objects n :=
    fun n hn => hstocked.unassigned (by omega)
  refine Mirrors.session hreturned ?_
  obtain ⟨userID, status, promoCodeID, totalAmount, discountAmount⟩ := order
  cases promoCodeID with
  | none =>
      refine Mirrors.session rfl (mirrors_canceled hheld hstocked.toOver hrow hothers ?_)
      exact fun objects hsame hfinish => hunused objects hsame hfinish
  | some promoID =>
      have hpromo : answerOf rows (.selectPromo promoID) =
          some (rows.lookup (.promo promoID)) := rfl
      refine Mirrors.read hpromo ?_
      cases hfound : rows.lookup (.promo promoID) with
      | none =>
          have hrelease : run (releasePromo (some promoID)) s₂ = (.ok (), s₂) := by
            simp only [releasePromo, run_bind, hstocked.toOver.run_select, hfound, run_pure]
          refine Mirrors.session hrelease
            (mirrors_canceled hheld hstocked.toOver hrow hothers ?_)
          exact fun objects hsame hfinish => hunused objects hsame hfinish
      | some promo =>
          obtain ⟨s₃, hrun, hs₃, huses, hkept⟩ :=
            run_releaseUse hstocked.toOver hfound (hstocked.unassigned (by decide))
          have hrelease : run (releasePromo (some promoID)) s₂ = (.ok (), s₃) := by
            simp only [releasePromo, run_bind, hstocked.toOver.run_select, hfound, hrun]
          refine Mirrors.session hrelease (mirrors_canceled hheld hs₃ hrow
            (fun n hn => (hothers n hn).trans (hkept n (by omega))) ?_)
          intro objects hsame hfinish
          refine hflush ((hkept 0 (by decide)).trans (hsame 0 (by decide))) ?_
          exact Finishes.bind (writes_uses hheld hfound (huses.trans (hsame 1 (by decide)))) hfinish

end Cancel

/-! ## Updating an order -/

section Update

variable {subject : Uuid} {loaded assigned : Order} {payload : OrderUpdateRequest}
  {lines : List ItemLine}

/-- The order and its lines have been assigned. -/
structure Revised (draw : Draw) (rows : Rows) (moved : Uuid → Int) (id : Uuid) (assigned : Order)
    (lines : List ItemLine) (s : Session Key Row) : Prop extends Over rows s where
  stocks : StocksMoved rows s.objects moved
  order : Assigned rows s.objects (.order id) assigned
  items : Assigned rows s.objects (.items id) (newItems draw.itemIDs lines)
  others : ∀ n, 3 < n → Unassigned rows s.objects n

theorem Stocked.revised (h : Stocked rows moved s) (draw : Draw) (id : Uuid) (assigned : Order)
    (lines : List ItemLine) :
    Revised draw rows moved id assigned lines
      ((s.assign (.items id) (newItems draw.itemIDs lines)).assign (.order id) assigned) := by
  have hother : ∀ n, n ≠ 2 → n ≠ 3 → Unassigned s.objects
      ((s.assign (.items id) (newItems draw.itemIDs lines)).assign (.order id) assigned).objects
        n :=
    fun n hn hn' => (unassigned_assign s (.items id) _ hn'.symm).trans
      (unassigned_assign _ (.order id) assigned hn.symm)
  refine ⟨(h.toOver.assign _ _).assign _ _, ?_, ?_, ?_, fun n hn => ?_⟩
  · exact h.products.trans (hother 0 (by decide) (by decide))
  · apply Unassigned.assigned (k := .order id)
    exact (h.unassigned (by simp [tableOf])).trans
      (unassigned_assign s (.items id) _ (by simp [tableOf]))
  · refine Assigned.trans ?_ (unassigned_assign _ (.order id) assigned (by simp [tableOf]))
    exact Unassigned.assigned (k := .items id) (h.unassigned (by simp [tableOf])) _
  · exact (h.unassigned (by omega)).trans (hother n (by omega) (by omega))

/-- The order is assigned again. -/
theorem Revised.again (h : Revised draw rows moved id assigned lines s) (assigned' : Order) :
    Revised draw rows moved id assigned' lines (s.assign (.order id) assigned') := by
  have hother : ∀ n, n ≠ 2 → Unassigned s.objects (s.assign (.order id) assigned').objects n :=
    fun n hn => unassigned_assign _ _ _ hn.symm
  refine ⟨h.toOver.assign _ _, h.stocks.trans (hother 0 (by decide)), ?_,
    h.items.trans (hother 3 (by decide)), fun n hn => ?_⟩
  · rw [Session.objects_assign]
    exact h.order.again assigned'
  · exact (h.others n hn).trans (hother n (by omega))

/-- A promo code is assigned. -/
theorem Revised.promo (h : Revised draw rows moved id assigned lines s) (hs' : Over rows s')
    (hkept : ∀ n, n ≠ 1 → Unassigned s.objects s'.objects n) :
    Revised draw rows moved id assigned lines s' :=
  ⟨hs', h.stocks.trans (hkept 0 (by decide)), h.order.trans (hkept 2 (by decide)),
    h.items.trans (hkept 3 (by decide)), fun n hn => (h.others n hn).trans (hkept n (by omega))⟩

theorem finishes_updated {objects : Rows} {placement : Placement} (hheld : Held rows)
    (hsupplies : draw.Supplies (Request.updateOrder subject id payload).keys rows)
    (hlength : placement.lines.length = payload.items.length)
    (hrow : rows.lookup (.order id) = some loaded) (huser : assigned.userID = loaded.userID)
    (horder : Assigned rows objects (.order id) assigned)
    (hitems : Assigned rows objects (.items id) (newItems draw.itemIDs placement.lines))
    (hoperation : Assigned rows objects (.operation draw.operationID)
      ⟨subject, .updateOrder, draw.clock⟩)
    (husers : Unassigned rows objects 5) :
    Finishes draw rows objects id 2 (Marketplace.updateOrder.finish subject id loaded
      (itemsOf rows id) placement assigned) := by
  obtain ⟨hfresh, _⟩ := fresh_of_supplies hsupplies hlength
  refine Finishes.bind (writes_order hheld hrow huser horder) ?_
  have hlines := Finishes.bind (f := fun _ => query (.insertOperation subject .updateOrder) >>=
    fun _ => query .commit >>= fun _ => Marketplace.orderResponse id)
    (writes_replacedItems hheld hfresh hitems)
    (Finishes.bind (writes_operation hheld (hsupplies.operation rfl) hoperation)
      (finishes_commit hheld husers (mem_of_lookup horder.row)))
  rwa [Program.bind_assoc] at hlines

/-- The operation is added last. -/
theorem mirrors_updated {p : Handler Response} {placement : Placement} (hheld : Held rows)
    (hsupplies : draw.Supplies (Request.updateOrder subject id payload).keys rows)
    (hlength : placement.lines.length = payload.items.length)
    (hrow : rows.lookup (.order id) = some loaded) (huser : assigned.userID = loaded.userID)
    (hs : Revised draw rows moved id assigned placement.lines s)
    (hp : ∀ objects, (∀ n, n < 2 → Unassigned s.objects objects n) →
      Finishes draw rows objects id 2 (Marketplace.updateOrder.finish subject id loaded
        (itemsOf rows id) placement assigned) → Finishes draw rows objects id 0 p) :
    Mirrors rows s (add (.operation draw.operationID) ⟨subject, .updateOrder, draw.clock⟩)
      (outcomeOf draw rows p) fun _ => Ready rows id := by
  have hother : ∀ n, n ≠ 4 → Unassigned s.objects (s.objects.insert (.operation draw.operationID)
      ⟨subject, .updateOrder, draw.clock⟩) n :=
    fun n hn => unassigned_insert _ _ _ hn.symm
  refine .returns () _ rfl (Finishes.ready ?_ (hs.toOver.add (hsupplies.operation rfl) _))
  rw [Session.objects_add]
  refine hp _ (fun n hn => hother n (by omega)) ?_
  refine finishes_updated hheld hsupplies hlength hrow huser
    (hs.order.trans (hother 2 (by decide))) (hs.items.trans (hother 3 (by decide))) ?_
    ((hs.others 5 (by decide)).trans (hother 5 (by decide)))
  exact Unassigned.assign (k := .operation draw.operationID) (hs.others 4 (by decide)) _

theorem mirrors_updateOrder (settings : Settings) (hheld : Held rows) (hs : Over rows s)
    (hpending : s.pending = ∅)
    (hsupplies : draw.Supplies (Request.updateOrder subject id payload).keys rows) :
    Mirrors rows s (requireRoles [.user, .admin] subject >>= fun user =>
        updateOrder settings (Draws.of draw) subject user id payload)
      (outcomeOf draw rows (Marketplace.updateOrder settings subject id payload)) Answers := by
  have hread : answerOf rows (.selectItems id) = some (itemsOf rows id) := rfl
  have hproducts : answerOf rows (.selectProductsForUpdate
      (updateProductIDs (requestedTotals payload.items) (itemsOf rows id))) =
        some (updateLoaded rows id payload.items) := rfl
  have hcovers := covers_update rows id payload.items
  have hids : ∀ item ∈ itemsOf rows id, item.productID ∈
      updateProductIDs (requestedTotals payload.items) (itemsOf rows id) :=
    fun item hitem => hcovers.returned _ (List.mem_map.mpr ⟨item, hitem, rfl⟩)
  rw [Marketplace.updateOrder]
  refine Mirrors.bind (hs.requireRoles _) ?_
  rintro user _ _ ⟨rfl, rfl⟩
  refine Mirrors.bind (hs.loadOrder user) ?_
  rintro order _ _ ⟨hrow, rfl, rfl⟩
  refine Mirrors.bind (hs.raiseIf _ _) ?_
  rintro _ _ _ ⟨_, rfl⟩
  refine mirrors_inTransactionContext hheld hs hpending fun s₁ hs₁ hobjects => ?_
  refine Mirrors.bind (hs₁.checkRateLimit _ _) ?_
  rintro _ _ _ rfl
  refine Mirrors.bind (hs₁.select hread) ?_
  rintro _ _ _ ⟨rfl, rfl, rfl⟩
  refine Mirrors.bind (hs₁.select hproducts) ?_
  rintro _ _ _ ⟨rfl, rfl, rfl⟩
  obtain ⟨s₂, hreturned, hgiven⟩ := run_giveBack (hs₁.stocked hobjects) hids
  refine Mirrors.session hreturned ?_
  refine Mirrors.bind (hgiven.placeItems ((loaded_productMap rows _).giveBack hids)
    hcovers.requested) ?_
  rintro _ placement s₃ ⟨rfl, hlength, hstocked, hloaded⟩
  have hflush : ∀ {objects : Rows} {next : Handler Response},
      StocksMoved rows objects _ → Finishes draw rows objects id 1 next →
        Finishes draw rows objects id 0 (flushStocks (changedStocks _ _) >>= fun _ => next) :=
    fun hmoved hnext => Finishes.bind (writes_stocks hheld hmoved hloaded) hnext
  obtain ⟨_, hlines⟩ := fresh_of_supplies hsupplies hlength
  rw [hlines]
  have hrevised := hstocked.revised draw id
    { order with totalAmount := linesTotal placement.lines, discountAmount := 0 } placement.lines
  have hpromos : Unassigned rows ((s₃.assign (.items id) (newItems draw.itemIDs
      placement.lines)).assign (.order id) { order with
        totalAmount := linesTotal placement.lines, discountAmount := 0 }).objects 1 :=
    ((hstocked.unassigned (by decide)).trans (unassigned_assign _ (.items id) _
      (by simp [tableOf]))).trans (unassigned_assign _ (.order id) _ (by simp [tableOf]))
  refine Mirrors.session (run_assign _ _ _) (Mirrors.session (run_assign _ _ _) ?_)
  obtain ⟨userID, status, promoCodeID, totalAmount, discountAmount⟩ := order
  cases promoCodeID with
  | none =>
      refine Mirrors.session rfl (mirrors_updated hheld hsupplies hlength hrow ?_ hrevised ?_)
      · rfl
      intro objects hsame hfinish
      refine hflush (hrevised.stocks.trans (hsame 0 (by decide))) ?_
      exact Finishes.unassigned hheld (hpromos.trans (hsame 1 (by decide))) hfinish
  | some promoID =>
      have hpromo : answerOf rows (.selectPromo promoID) =
          some (rows.lookup (.promo promoID)) := rfl
      simp only [revalidatePromo, bind_assoc]
      refine Mirrors.bind (hrevised.toOver.select hpromo) ?_
      rintro _ _ _ ⟨rfl, rfl, rfl⟩
      refine Mirrors.bind (hrevised.toOver.require _ _) ?_
      rintro promo _ _ ⟨hfound, rfl, rfl⟩
      refine Mirrors.now (Mirrors.bind (hrevised.toOver.returnApi _) ?_)
      rintro _ _ _ ⟨_, rfl, rfl⟩
      by_cases hminimum : linesTotal placement.lines < promo.minOrderAmount
      · simp only [if_pos hminimum, bind_assoc]
        obtain ⟨s₄, hrun, hs₄, huses, hkept⟩ := run_releaseUse hrevised.toOver hfound hpromos
        have hreleased := hrevised.promo hs₄ hkept
        refine Mirrors.session hrun (Mirrors.session (run_assign _ _ _) ?_)
        refine mirrors_updated hheld hsupplies hlength hrow ?_ (hreleased.again _) ?_
        · rfl
        intro objects hsame hfinish
        have hagain := (unassigned_assign _ (.order id) _ (by simp [tableOf])).trans
          (hsame 1 (by decide))
        refine hflush ((hreleased.again _).stocks.trans (hsame 0 (by decide))) ?_
        exact Finishes.bind (writes_uses hheld hfound (huses.trans hagain)) hfinish
      · simp only [if_neg hminimum, bind_assoc]
        refine Mirrors.bind (hrevised.toOver.returnApi _) ?_
        rintro discount _ _ ⟨_, rfl, rfl⟩
        refine Mirrors.session (run_assign _ _ _) ?_
        refine mirrors_updated hheld hsupplies hlength hrow ?_ (hrevised.again _) ?_
        · rfl
        intro objects hsame hfinish
        have hagain := (unassigned_assign _ (.order id) _ (by simp [tableOf])).trans
          (hsame 1 (by decide))
        refine hflush ((hrevised.again _).stocks.trans (hsame 0 (by decide))) ?_
        exact Finishes.unassigned hheld (hpromos.trans hagain) hfinish

end Update

/-! ## Whole requests -/

/-- The same request to the handlers of the marketplace. -/
def OrderRequest.request (subject : Uuid) : OrderRequest → Request
  | .createOrder payload => .createOrder subject payload
  | .updateOrder id payload => .updateOrder subject id payload
  | .cancelOrder id => .cancelOrder subject id

/-- A request of `subject` with a session that is closed in the end. -/
def serveOrder (settings : Settings) (draws : Draws) (subject : Uuid) (request : OrderRequest)
    (s : Session Key Row) : Except HandlerError OrderResponse × Session Key Row :=
  serve (requireRoles [.user, .admin] subject >>= fun user =>
    handle settings draws subject user request) s

theorem over_opened (rows : Rows) : Over rows (Session.opened rows true) := by
  refine ⟨rfl, rfl, rfl, fun k hk => ?_⟩
  cases hk

theorem mirrors_handle (settings : Settings) {subject : Uuid} {request : OrderRequest}
    (hheld : Held rows) (hrows : WellFormed rows)
    (hsupplies : draw.Supplies (request.request subject).keys rows) :
    Mirrors rows (Session.opened rows true) (requireRoles [.user, .admin] subject >>= fun user =>
        handle settings (Draws.of draw) subject user request)
      (outcomeOf draw rows (Marketplace.handle settings (request.request subject))) Answers := by
  have hs := over_opened rows
  cases request with
  | createOrder payload => exact mirrors_createOrder settings hheld hrows hs rfl hsupplies
  | updateOrder id payload => exact mirrors_updateOrder settings hheld hs rfl hsupplies
  | cancelOrder id => exact mirrors_cancelOrder hheld hs rfl

/-- A request on a session has the result of its statements and leaves the same rows, over
    any tables whose rows are as their columns hold them. -/
theorem order_sessions_serve (settings : Settings) {subject : Uuid} {request : OrderRequest}
    (hheld : Held rows) (hrows : WellFormed rows)
    (hsupplies : draw.Supplies (request.request subject).keys rows) (active : Bool) :
    ∃ rows', (request.request subject).serve settings draw rows =
        some ((serveOrder settings (Draws.of draw) subject request
          (Session.opened rows active)).1.map Response.order, rows') ∧
      ∀ k, (serveOrder settings (Draws.of draw) subject request
        (Session.opened rows active)).2.database.lookup k = rows'.lookup k := by
  have hopened : serveOrder settings (Draws.of draw) subject request (Session.opened rows active) =
      serveOrder settings (Draws.of draw) subject request (Session.opened rows true) := by
    cases active with
    | true => rfl
    | false => rfl
  rw [hopened, serve_eq, serveOrder, serve]
  cases mirrors_handle settings hheld hrows hsupplies with
  | returns response s' hm hpost =>
      obtain ⟨t, houtcome, hdatabase⟩ := hpost
      rw [outcomeOf] at houtcome
      rw [houtcome, hm]
      exact ⟨t.rows, rfl, hdatabase⟩
  | raises error s' t hm hs' houtcome ht =>
      rw [outcomeOf] at houtcome
      rw [houtcome, hm]
      refine ⟨t.rows, rfl, fun k => ?_⟩
      rw [ht]
      exact congrArg (AList.lookup k) hs'

end SoaHomework.OrderSessions

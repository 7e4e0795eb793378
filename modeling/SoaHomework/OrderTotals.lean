import SoaHomework.DrawnKeys
import SoaHomework.OrderTwins

/-!
# Orders with the same totals

The lines of an order matter through their totals only. The same requests, but for
one whose lines add up to the same, succeed on both of two alike databases or fail on
both, and leave databases that are alike (`lines_read_by_totals`).
-/

namespace SoaHomework.Marketplace

open StatementProgram
open StatementProgram.Program (Twins)

/-! ## The handlers -/

section Handlers

variable {committed committed' held held' : Uuid → List OrderItem} {t₀ t₀' : Draft}
  {draw draw' : Draw} {settings : Settings}

/-- Placing lines with the same totals. -/
theorem twins_placeItems {rows rows' : Rows} {ids ids' : List Uuid}
    {items items' : List OrderItemCreate} {returned returned' : List OrderItem}
    {pre : Draft → Draft → Prop} {next next' : Placement → Handler Response}
    {post : Response → Response → Draft → Draft → Prop}
    (hrows : ∀ p, rows'.lookup (.product p) = rows.lookup (.product p))
    (hreturned : SameTotals (itemLines returned) (itemLines returned'))
    (hids : Covers ids items returned) (hids' : Covers ids' items' returned')
    (hlines : SameTotals (requestLines items) (requestLines items'))
    (hpre : ∀ t t', pre t t' → Level t t')
    (hnext : ∀ placement placement',
      PlacedAlike (productMap rows ids) (productMap rows' ids') placement placement' →
        Twins (onDraft draw) (onDraft draw') Level pre (next placement) (next' placement')
          post) :
    Twins (onDraft draw) (onDraft draw') Level pre
      (returnApi (placeItems (giveBack (productMap rows ids) returned) items) >>= next)
      (returnApi (placeItems (giveBack (productMap rows' ids') returned') items') >>= next')
      post := by
  have hoffered := lookup_offered hrows hreturned hids hids' hlines
  by_cases hplace : Placeable (giveBack (productMap rows ids) returned) items
  · have hplace' := (placeable_iff hlines hoffered).mpr hplace
    rw [placeItems_eq hplace, placeItems_eq hplace']
    exact hnext _ _ (placedAlike hrows hreturned hids hids' hlines hplace hplace')
  · obtain ⟨error, herror⟩ := exists_error_of_not_placeable hplace
    obtain ⟨error', herror'⟩ :=
      exists_error_of_not_placeable (mt (placeable_iff hlines hoffered).mp hplace)
    rw [herror, herror']
    exact Twins.fail hpre

theorem twins_finishCreate (hdraw : SameDraw draw draw') (subject : Uuid) (order : Order)
    {placement placement' : Placement}
    (hlines : SameTotals (placedLines placement.lines) (placedLines placement'.lines)) :
    Twins (onDraft draw) (onDraft draw') Level Even (createOrder.finish subject placement order)
      (createOrder.finish subject placement' order) fun _ _ => Even := by
  apply Twins.bind_same (twins_even hdraw (uses_query (Or.inl rfl)))
  intro id
  apply Twins.bind _ (twins_insertItems id hlines)
  intro _ _
  apply Twins.bind_same (twins_even hdraw (uses_query (Or.inl rfl)))
  intro _
  apply Twins.bind_same (twins_even hdraw (uses_query (Or.inr rfl)))
  intro _
  exact twins_orderResponse hdraw id

theorem Alike.even (h : Alike committed committed' held held' t₀ t₀')
    (hcommitted : SameOrders committed committed') (hheld : SameOrders held held') :
    Even t₀ t₀' :=
  ⟨committed, committed', held, held', hcommitted, hheld, h⟩

theorem twins_createOrder (hdraw : SameDraw draw draw')
    (hcommitted : SameOrders committed committed') (hheld : SameOrders held held')
    (h : Alike committed committed' held held' t₀ t₀') (subject : Uuid)
    {payload payload' : OrderCreateRequest} (hcode : payload'.promoCode = payload.promoCode)
    (hlines : SameTotals (requestLines payload.items) (requestLines payload'.items)) :
    Twins (onDraft draw) (onDraft draw') Level (Reading t₀ t₀')
      (createOrder settings subject payload) (createOrder settings subject payload')
      fun _ _ => Even := by
  have heven := h.even hcommitted hheld
  have hlevel : ∀ t t', Reading t₀ t₀' t t' → Level t t' := by
    rintro t t' ⟨rfl, rfl⟩
    exact heven.level
  have hrows : ∀ p, t₀'.seen.lookup (.product p) = t₀.seen.lookup (.product p) :=
    fun p => h.seen.same _ (by simp)
  have hcovers : ∀ items, Covers ((requestedTotals items).map Prod.fst) items [] :=
    fun items => ⟨fun p hp => hp, by simp⟩
  apply Twins.bind_same (twins_looks hdraw heven (looks_requireRoles _ subject))
  intro user
  apply Twins.bind_same (twins_looks hdraw heven (looks_checkRateLimit subject _))
  intro _
  refine twins_read rfl rfl ?_
  rw [h.seen.activeOrder]
  apply Twins.bind_same (twins_looks hdraw heven (uses_raiseIf _ _))
  intro _
  refine twins_read rfl rfl ?_
  have hnothing : SameTotals (itemLines []) (itemLines []) := fun _ => rfl
  apply twins_placeItems hrows hnothing (hcovers _) (hcovers _) hlines hlevel
  intro placement placement' hplaced
  rw [hplaced.total, hcode]
  have hflush := twins_flushStocks draw draw' hcommitted h hplaced.stocks
    (nodup_changedStocks _ _)
  cases payload.promoCode with
  | none =>
      apply Twins.bind _ hflush
      intro _ _
      exact (twins_finishCreate hdraw subject _ hplaced.lines).mono
        (fun t t' h => h.even hcommitted hheld) fun _ _ _ _ h => h
  | some code =>
      apply Twins.bind_same (twins_looks hdraw heven (looks_applyPromo code _))
      rintro ⟨promoID, promo, discount⟩
      apply Twins.bind _ hflush
      intro _ _
      apply Twins.bind_same (twins_plain hdraw hcommitted (uses_flushUses promo _ rfl))
      intro _
      exact (twins_finishCreate hdraw subject _ hplaced.lines).mono
        (fun t t' h => h.even hcommitted hheld) fun _ _ _ _ h => h

theorem twins_finishUpdate (hdraw : SameDraw draw draw')
    (hcommitted : SameOrders committed committed') (hheld : SameOrders held held')
    (subject id : Uuid) (loaded assigned : Order) {placement placement' : Placement}
    (hlines : SameTotals (placedLines placement.lines) (placedLines placement'.lines)) :
    Twins (onDraft draw) (onDraft draw') Level (Alike committed committed' held held')
      (updateOrder.finish subject id loaded (held id) placement assigned)
      (updateOrder.finish subject id loaded (held' id) placement' assigned) fun _ _ => Even := by
  have hflush : (flushOrder id loaded assigned).Uses fun statement => statement.plain = true :=
    uses_flushOrder loaded assigned fun _ => rfl
  apply Twins.bind_same (twins_plain hdraw hcommitted hflush)
  intro _
  apply twins_replaceItems hcommitted hheld id hlines
  apply Twins.bind_same (twins_even hdraw (uses_query (Or.inl rfl)))
  intro _
  apply Twins.bind_same (twins_even hdraw (uses_query (Or.inr rfl)))
  intro _
  exact twins_orderResponse hdraw id

theorem twins_updateOrder (hdraw : SameDraw draw draw')
    (hcommitted : SameOrders committed committed') (hheld : SameOrders held held')
    (h : Alike committed committed' held held' t₀ t₀') (subject id : Uuid)
    {payload payload' : OrderUpdateRequest}
    (hlines : SameTotals (requestLines payload.items) (requestLines payload'.items)) :
    Twins (onDraft draw) (onDraft draw') Level (Reading t₀ t₀')
      (updateOrder settings subject id payload) (updateOrder settings subject id payload')
      fun _ _ => Even := by
  have heven := h.even hcommitted hheld
  have hlevel : ∀ t t', Reading t₀ t₀' t t' → Level t t' := by
    rintro t t' ⟨rfl, rfl⟩
    exact heven.level
  have hrows : ∀ p, t₀'.seen.lookup (.product p) = t₀.seen.lookup (.product p) :=
    fun p => h.seen.same _ (by simp)
  have hcovers : ∀ items returned,
      Covers (updateProductIDs (requestedTotals items) returned) items returned := by
    intro items returned
    constructor
    · intro p hp
      exact List.mem_dedup.mpr (List.mem_append_left _ hp)
    · intro p hp
      exact List.mem_dedup.mpr (List.mem_append_right _ hp)
  apply Twins.bind_same (twins_looks hdraw heven (looks_requireRoles _ subject))
  intro user
  apply Twins.bind_same (twins_looks hdraw heven (looks_loadOrder subject user id))
  intro order
  apply Twins.bind_same (twins_looks hdraw heven (uses_raiseIf _ _))
  intro _
  apply Twins.bind_same (twins_looks hdraw heven (looks_checkRateLimit subject _))
  intro _
  refine twins_read rfl rfl ?_
  refine twins_read rfl rfl ?_
  rw [h.seen.items, h.seen.items']
  apply twins_placeItems hrows (hheld id) (hcovers _ _) (hcovers _ _) hlines hlevel
  intro placement placement' hplaced
  rw [hplaced.total]
  have hflush := twins_flushStocks draw draw' hcommitted h hplaced.stocks
    (nodup_changedStocks _ _)
  have hfinish := fun assigned => twins_finishUpdate hdraw hcommitted hheld subject id order
    assigned hplaced.lines
  cases order.promoCodeID with
  | none =>
      apply Twins.bind _ hflush
      intro _ _
      exact hfinish _
  | some promoID =>
      apply Twins.bind_same (twins_looks hdraw heven (uses_query rfl))
      intro found
      apply Twins.bind_same (twins_looks hdraw heven (uses_require _ found))
      intro promo
      apply Twins.bind_same (twins_looks hdraw heven (uses_query rfl))
      intro now
      apply Twins.bind_same (twins_looks hdraw heven (uses_returnApi _))
      intro _
      split
      · apply Twins.bind _ hflush
        intro _ _
        apply Twins.bind_same (twins_plain hdraw hcommitted (uses_flushUses promo _ rfl))
        intro _
        exact hfinish _
      · apply Twins.bind_same (twins_looks hdraw heven (uses_returnApi _))
        intro discount
        apply Twins.bind _ hflush
        intro _ _
        exact hfinish _

theorem twins_finishCancel (hdraw : SameDraw draw draw') (id : Uuid) (loaded : Order) :
    Twins (onDraft draw) (onDraft draw') Level Even (cancelOrder.finish id loaded)
      (cancelOrder.finish id loaded) fun _ _ => Even := by
  have hflush : (flushOrder id loaded { loaded with status := .canceled }).Uses
      fun statement => statement.plain = true ∨ statement = .commit :=
    uses_flushOrder _ _ fun _ => Or.inl rfl
  apply Twins.bind_same (twins_even hdraw hflush)
  intro _
  apply Twins.bind_same (twins_even hdraw (uses_query (Or.inr rfl)))
  intro _
  exact twins_orderResponse hdraw id

theorem twins_cancelOrder (hdraw : SameDraw draw draw')
    (hcommitted : SameOrders committed committed') (hheld : SameOrders held held')
    (h : Alike committed committed' held held' t₀ t₀') (subject id : Uuid) :
    Twins (onDraft draw) (onDraft draw') Level (Reading t₀ t₀') (cancelOrder subject id)
      (cancelOrder subject id) fun _ _ => Even := by
  have heven := h.even hcommitted hheld
  have hrows : ∀ p, t₀'.seen.lookup (.product p) = t₀.seen.lookup (.product p) :=
    fun p => h.seen.same _ (by simp)
  have hids : ∀ {returned : List OrderItem} {p : Uuid}, quantityOf p (itemLines returned) ≠ 0 →
      p ∈ returned.map OrderItem.productID := by
    intro returned p hp
    by_contra hnone
    have hkeys : p ∉ (itemLines returned).map Prod.fst := by
      rwa [itemLines, List.map_map]
    exact hp (quantityOf_eq_zero hkeys)
  apply Twins.bind_same (twins_looks hdraw heven (looks_requireRoles _ subject))
  intro user
  apply Twins.bind_same (twins_looks hdraw heven (looks_loadOrder subject user id))
  intro order
  apply Twins.bind_same (twins_looks hdraw heven (uses_raiseIf _ _))
  intro _
  refine twins_read rfl rfl ?_
  refine twins_read rfl rfl ?_
  rw [h.seen.items, h.seen.items']
  have hreturned : ∀ p, (giveBack (productMap t₀'.seen ((held' id).map OrderItem.productID))
      (held' id)).lookup p =
        ((productMap t₀'.seen ((held' id).map OrderItem.productID)).lookup p).map fun product =>
          product.addStock (quantityOf p (itemLines (held id))) := by
    intro p
    rw [lookup_giveBack, hheld id p]
  have hids' : ∀ p, quantityOf p (itemLines (held id)) ≠ 0 →
      p ∈ (held' id).map OrderItem.productID := by
    intro p hp
    rw [hheld id p] at hp
    exact hids hp
  have hperm := changedStocks_perm hrows (lookup_giveBack _ (held id)) (fun p => hids) hreturned
    hids'
  have hflush := twins_flushStocks draw draw' hcommitted h hperm
    (nodup_changedStocks _ _)
  have hfinish : Twins (onDraft draw) (onDraft draw') Level
      (Alike committed committed' held held') (cancelOrder.finish id order)
      (cancelOrder.finish id order) fun _ _ => Even :=
    (twins_finishCancel hdraw id order).mono (fun t t' h => h.even hcommitted hheld)
      fun _ _ _ _ h => h
  cases order.promoCodeID with
  | none =>
      apply Twins.bind _ hflush
      intro _ _
      exact hfinish
  | some promoID =>
      apply Twins.bind_same (twins_looks hdraw heven (uses_query rfl))
      intro found
      cases found with
      | none =>
          apply Twins.bind _ hflush
          intro _ _
          exact hfinish
      | some promo =>
          apply Twins.bind _ hflush
          intro _ _
          apply Twins.bind_same (twins_plain hdraw hcommitted (uses_flushUses promo _ rfl))
          intro _
          exact hfinish

/-! ## The other handlers -/

/-- The statement keeps the tables even. -/
def Statement.level (statement : Statement) : Prop :=
  statement.plain = true ∨ statement = .commit

theorem level_of_catalog {α : Type} {p : Handler α}
    (h : p.Uses fun statement => statement.catalog = true) : p.Uses Statement.level := by
  apply h.mono
  intro statement hcatalog
  cases statement with
  | commit => exact Or.inr rfl
  | insertProduct product => exact Or.inl rfl
  | updateProduct id change => exact Or.inl rfl
  | insertPromo promo => exact Or.inl rfl
  | refreshProduct id => exact Or.inl rfl
  | refreshPromo id => exact Or.inl rfl
  | _ => exact Or.inl (Statement.plain_of_looks hcatalog)

end Handlers

/-! ## Whole runs -/

/-- The same request, but for order lines that add up to the same. -/
inductive Request.SameLines : Request → Request → Prop where
  | same (request : Request) : SameLines request request
  | create (subject : Uuid) {payload payload' : OrderCreateRequest}
      (hcode : payload'.promoCode = payload.promoCode)
      (hlines : SameTotals (requestLines payload.items) (requestLines payload'.items)) :
      SameLines (.createOrder subject payload) (.createOrder subject payload')
  | update (subject id : Uuid) {payload payload' : OrderUpdateRequest}
      (hlines : SameTotals (requestLines payload.items) (requestLines payload'.items)) :
      SameLines (.updateOrder subject id payload) (.updateOrder subject id payload')

section Runs

variable {draw draw' : Draw} {settings : Settings} {held held' : Uuid → List OrderItem}
  {t₀ t₀' : Draft}

theorem twins_handle (hdraw : SameDraw draw draw') (hheld : SameOrders held held')
    (h : Alike held held' held held' t₀ t₀') {request request' : Request}
    (hrequest : request.SameLines request') :
    Twins (onDraft draw) (onDraft draw') Level (Reading t₀ t₀') (handle settings request)
      (handle settings request') fun _ _ => Even := by
  have hlevel : ∀ {p : Handler Response}, p.Uses (fun statement => statement.catalog = true) →
      Twins (onDraft draw) (onDraft draw') Level (Reading t₀ t₀') p p fun _ _ => Even := by
    intro p hp
    apply (twins_even hdraw (level_of_catalog hp)).mono
    · rintro t t' ⟨rfl, rfl⟩
      exact h.even hheld hheld
    · intro _ _ _ _ h
      exact h.right
  cases hrequest with
  | create subject hcode hlines =>
      exact twins_createOrder hdraw hheld hheld h subject hcode hlines
  | update subject id hlines => exact twins_updateOrder hdraw hheld hheld h subject id hlines
  | same =>
      cases request with
      | createProduct subject payload => exact hlevel (catalog_createProduct subject payload)
      | updateProduct subject id payload => exact hlevel (catalog_updateProduct subject id payload)
      | deleteProduct subject id => exact hlevel (catalog_deleteProduct subject id)
      | createPromoCode subject payload => exact hlevel (catalog_createPromoCode subject payload)
      | createOrder subject payload =>
          exact twins_createOrder hdraw hheld hheld h subject rfl fun _ => rfl
      | updateOrder subject id payload =>
          exact twins_updateOrder hdraw hheld hheld h subject id fun _ => rfl
      | cancelOrder subject id => exact twins_cancelOrder hdraw hheld hheld h subject id

/-- A request and what it takes from the clock and from `uuid4()`. -/
structure Call where
  draw : Draw
  request : Request

/-- The same call, but for the order lines and the keys of their rows. -/
structure Call.SameLines (call call' : Call) : Prop where
  draw : SameDraw call.draw call'.draw
  request : call.request.SameLines call'.request

/-- Requests served one after another. -/
def serveAll (settings : Settings) :
    List Call → Rows → Option (List (Except HandlerError Response) × Rows)
  | [], rows => some ([], rows)
  | call :: calls, rows =>
      (call.request.serve settings call.draw rows).bind fun (answer, rows) =>
        (serveAll settings calls rows).map fun (answers, rows) => (answer :: answers, rows)

/-- Each call draws keys that are new when it comes. -/
def Supplied (settings : Settings) : List Call → Rows → Prop
  | [], _ => True
  | call :: calls, rows => call.draw.Supplies call.request.keys rows ∧
      ∀ answer rows', call.request.serve settings call.draw rows = some (answer, rows') →
        Supplied settings calls rows'

/-- With new keys, and one for each order line, all the requests are served. -/
theorem serveAll_isSome {calls : List Call} {rows : Rows} (h : Supplied settings calls rows) :
    (serveAll settings calls rows).isSome = true := by
  induction calls generalizing rows with
  | nil => rfl
  | cons call calls ih =>
      obtain ⟨hkeys, hrest⟩ := h
      obtain ⟨⟨answer, rows'⟩, hserve⟩ :=
        Option.isSome_iff_exists.mp (serve_isSome settings hkeys)
      rw [serveAll, hserve, Option.bind_some, Option.isSome_map]
      exact ih (hrest answer rows' hserve)

theorem serve_alike {call call' : Call} {rows rows' final final' : Rows}
    {answer answer' : Except HandlerError Response} (hcall : call.SameLines call')
    (hheld : SameOrders held held') (h : AlikeRows held held' rows rows')
    (hserve : call.request.serve settings call.draw rows = some (answer, final))
    (hserve' : call'.request.serve settings call'.draw rows' = some (answer', final')) :
    answer'.isOk = answer.isOk ∧
      ∃ items items', SameOrders items items' ∧ AlikeRows items items' final final' := by
  have hseen : ∀ rows : Rows, (⟨rows, ∅⟩ : Draft).seen = rows := fun _ => AList.empty_union
  have halike : Alike held held' held held' ⟨rows, ∅⟩ ⟨rows', ∅⟩ :=
    ⟨h, by rwa [hseen, hseen]⟩
  rw [serve_eq] at hserve hserve'
  obtain ⟨⟨result, t⟩, hrun, hend⟩ := Option.map_eq_some_iff.mp hserve
  obtain ⟨⟨result', t'⟩, hrun', hend'⟩ := Option.map_eq_some_iff.mp hserve'
  cases hend
  cases hend'
  rcases twins_handle hcall.draw hheld halike hcall.request _ _ ⟨rfl, rfl⟩ _ _ hrun _ _ hrun'
    with ⟨value, value', rfl, rfl, heven⟩ | ⟨error, error', rfl, rfl, hlevel⟩
  · exact ⟨rfl, heven.level⟩
  · exact ⟨rfl, hlevel⟩

theorem serveAll_alike {calls calls' : List Call}
    (hcalls : List.Forall₂ Call.SameLines calls calls') {rows rows' final final' : Rows}
    {answers answers' : List (Except HandlerError Response)}
    (hheld : SameOrders held held') (h : AlikeRows held held' rows rows')
    (hrun : serveAll settings calls rows = some (answers, final))
    (hrun' : serveAll settings calls' rows' = some (answers', final')) :
    answers'.map Except.isOk = answers.map Except.isOk ∧
      ∃ items items', SameOrders items items' ∧ AlikeRows items items' final final' := by
  induction hcalls generalizing rows rows' held held' answers answers' with
  | nil =>
      cases hrun
      cases hrun'
      exact ⟨rfl, held, held', hheld, h⟩
  | cons hcall _ ih =>
      obtain ⟨⟨answer, middle⟩, hserve, hrest⟩ := Option.bind_eq_some_iff.mp hrun
      obtain ⟨⟨answer', middle'⟩, hserve', hrest'⟩ := Option.bind_eq_some_iff.mp hrun'
      obtain ⟨⟨rest, end₁⟩, hall, hend⟩ := Option.map_eq_some_iff.mp hrest
      obtain ⟨⟨rest', end₁'⟩, hall', hend'⟩ := Option.map_eq_some_iff.mp hrest'
      cases hend
      cases hend'
      obtain ⟨hok, items, items', hitems, halike⟩ := serve_alike hcall hheld h hserve hserve'
      obtain ⟨hoks, hlevel⟩ := ih hitems halike hall hall'
      exact ⟨by rw [List.map_cons, List.map_cons, hok, hoks], hlevel⟩

theorem alikeRows_self (rows : Rows) :
    AlikeRows (itemsOf rows) (itemsOf rows) rows rows :=
  ⟨fun _ _ => rfl, rfl, fun _ => rfl, fun _ => rfl⟩

/-- Two runs whose orders ask for the same quantity of each product, by whatever lines,
    have the same successes and failures and leave the same products, orders and promo
    codes. Both take the same keys from `uuid4()` but those of the order lines. -/
theorem lines_read_by_totals (settings : Settings) {calls calls' : List Call}
    (hcalls : List.Forall₂ Call.SameLines calls calls') {rows final final' : Rows}
    {answers answers' : List (Except HandlerError Response)}
    (hrun : serveAll settings calls rows = some (answers, final))
    (hrun' : serveAll settings calls' rows = some (answers', final')) :
    answers'.map Except.isOk = answers.map Except.isOk ∧
      ∀ k, (∀ id, k ≠ .items id) → final'.lookup k = final.lookup k := by
  obtain ⟨hok, _, _, _, halike⟩ :=
    serveAll_alike hcalls (fun _ _ => rfl) (alikeRows_self rows) hrun hrun'
  exact ⟨hok, halike.same⟩

/-- A user and two products. -/
def lampShop : Rows := (lampRows.insert (.user 5) ⟨.user⟩).insert (.product 3) soldLamp

/-- An order line of the request, for one lamp and `more`. -/
def lamps (p : Uuid) (more : Fin 999) : OrderItemCreate :=
  ⟨p, more + 1, by omega, by omega⟩

def lampsTogether : OrderCreateRequest where
  items := [lamps 2 2, lamps 3 0]
  promoCode := none
  minItems := by simp
  maxItems := by simp

/-- The same quantities in three lines. -/
def lampsApart : OrderCreateRequest where
  items := [lamps 2 0, lamps 3 0, lamps 2 1]
  promoCode := none
  minItems := by simp
  maxItems := by simp

/-- An order is created, and canceled a minute later. -/
def createAndCancel (payload : OrderCreateRequest) (itemIDs : List Uuid) : List Call :=
  [⟨⟨0, 20, 21, itemIDs⟩, .createOrder 5 payload⟩, ⟨⟨60000000, 30, 31, []⟩, .cancelOrder 5 20⟩]

theorem lines_read_by_totals_lamps :
    ∃ answers answers' final final',
      serveAll ⟨5⟩ (createAndCancel lampsTogether [40, 41]) lampShop = some (answers, final) ∧
      serveAll ⟨5⟩ (createAndCancel lampsApart [40, 41, 42]) lampShop = some (answers', final') ∧
      answers.map Except.isOk = [true, true] ∧
      answers'.map Except.isOk = answers.map Except.isOk ∧
      ∀ k, (∀ id, k ≠ .items id) → final'.lookup k = final.lookup k := by
  have hserved : ((serveAll ⟨5⟩ (createAndCancel lampsTogether [40, 41]) lampShop).map
      fun served => served.1.map Except.isOk) = some [true, true] := by decide +kernel
  have hserved' : (serveAll ⟨5⟩ (createAndCancel lampsApart [40, 41, 42]) lampShop).isSome := by
    decide +kernel
  obtain ⟨⟨answers, final⟩, hrun, hok⟩ := Option.map_eq_some_iff.mp hserved
  obtain ⟨⟨answers', final'⟩, hrun'⟩ := Option.isSome_iff_exists.mp hserved'
  have hlines : SameTotals (requestLines lampsTogether.items) (requestLines lampsApart.items) := by
    intro p
    have hone : (((1 : Fin 999) : ℕ) : Int) = 1 := rfl
    have htwo : (((2 : Fin 999) : ℕ) : Int) = 2 := rfl
    simp only [lampsTogether, lampsApart, lamps, requestLines, List.map_cons, List.map_nil,
      quantityOf_cons, quantityOf_nil, Fin.val_zero, hone, htwo]
    grind
  have hcalls : List.Forall₂ Call.SameLines (createAndCancel lampsTogether [40, 41])
      (createAndCancel lampsApart [40, 41, 42]) :=
    .cons ⟨⟨rfl, rfl, rfl⟩, .create 5 rfl hlines⟩ (.cons ⟨⟨rfl, rfl, rfl⟩, .same _⟩ .nil)
  exact ⟨answers, answers', final, final', hrun, hrun', hok,
    lines_read_by_totals ⟨5⟩ hcalls hrun hrun'⟩

end Runs

end SoaHomework.Marketplace

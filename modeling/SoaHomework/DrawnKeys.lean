import SoaHomework.HandlerStatements
import SoaHomework.RequestsAlone

/-!
# The keys that a request draws

A request takes each kind of key from `uuid4()` at most once, and one key for each of its
order lines. When the keys that it draws are new, it runs to its end (`serve_isSome`).
-/

namespace SoaHomework.Marketplace

open StatementProgram

/-- Which keys are still to be drawn: for an order, product or promo code, for an operation,
    and for how many order lines. -/
structure Keys where
  row : Bool
  operation : Bool
  items : Option Nat

/-- What is left after a statement. -/
def Keys.after (keys : Keys) : Statement → Option Keys
  | .insertOrder _ => if keys.row then some { keys with row := false } else none
  | .insertProduct _ => if keys.row then some { keys with row := false } else none
  | .insertPromo _ => if keys.row then some { keys with row := false } else none
  | .insertOperation _ _ => if keys.operation then some { keys with operation := false } else none
  | .insertItems _ lines =>
      if keys.items = some lines.length then some { keys with items := none } else none
  | _ => some keys

def Request.keys : Request → Keys
  | .createOrder _ payload => ⟨true, true, some payload.items.length⟩
  | .updateOrder _ _ payload => ⟨false, true, some payload.items.length⟩
  | .createProduct _ _ => ⟨true, false, none⟩
  | .createPromoCode _ _ => ⟨true, false, none⟩
  | _ => ⟨false, false, none⟩

/-- `uuid4()` gives new keys. -/
structure Draw.Supplies (draw : Draw) (keys : Keys) (rows : Rows) : Prop where
  row : keys.row = true →
    .order draw.id ∉ rows ∧ .product draw.id ∉ rows ∧ .promo draw.id ∉ rows
  operation : keys.operation = true → .operation draw.operationID ∉ rows
  items : ∀ n, keys.items = some n → draw.itemIDs.length = n ∧ draw.itemIDs.Nodup ∧
    ∀ id ∈ draw.itemIDs, id ∉ Marketplace.itemIDs rows

variable {draw : Draw} {keys keys' : Keys} {rows : Rows} {t : Draft}

/-! ## Statements -/

/-- The key of the row has been drawn. -/
theorem Draw.Supplies.withoutRow (h : draw.Supplies keys rows) :
    draw.Supplies { keys with row := false } rows where
  row hleft := absurd hleft Bool.false_ne_true
  operation := h.operation
  items := h.items

/-- A row that has none of the keys still to be drawn. -/
theorem Draw.Supplies.insert (h : draw.Supplies keys rows) {k : Key} {row : Row k}
    (hrow : keys.row = true → k ≠ .order draw.id ∧ k ≠ .product draw.id ∧ k ≠ .promo draw.id)
    (hoperation : keys.operation = true → k ≠ .operation draw.operationID)
    (hitems : keys.items ≠ none → ∀ id ∈ rowItemIDs k row, id ∈ Marketplace.itemIDs rows) :
    draw.Supplies keys (rows.insert k row) where
  row hkeys := by
    obtain ⟨horder, hproduct, hpromo⟩ := h.row hkeys
    obtain ⟨hk, hk', hk''⟩ := hrow hkeys
    simp only [AList.mem_insert, not_or]
    exact ⟨⟨hk.symm, horder⟩, ⟨hk'.symm, hproduct⟩, ⟨hk''.symm, hpromo⟩⟩
  operation hkeys := by
    simp only [AList.mem_insert, not_or]
    exact ⟨(hoperation hkeys).symm, h.operation hkeys⟩
  items n hn := by
    obtain ⟨hlength, hnodup, hnew⟩ := h.items n hn
    refine ⟨hlength, hnodup, fun id hid hmem => hnew id hid ?_⟩
    obtain ⟨k', row', hlookup, hid'⟩ := mem_itemIDs_iff.mp hmem
    by_cases hk : k' = k
    · subst hk
      rw [AList.lookup_insert, Option.some.injEq] at hlookup
      subst hlookup
      exact hitems (by simp [hn]) id hid'
    · rw [AList.lookup_insert_ne hk] at hlookup
      exact mem_itemIDs_iff.mpr ⟨k', row', hlookup, hid'⟩

/-- An update inserts no row, and one of order lines only drops some. -/
theorem Draw.Supplies.update (h : draw.Supplies keys t.seen) (k : Key) (set : Row k → Row k)
    (check : Row k → Bool)
    (hset : ∀ row : Row k, ∀ id ∈ rowItemIDs k (set row), id ∈ rowItemIDs k row) :
    draw.Supplies keys (t.update k set check).2.seen := by
  rw [Draft.update]
  cases hlookup : t.seen.lookup k with
  | none => exact h
  | some row =>
      have hk : k ∈ t.seen := mem_of_lookup hlookup
      simp only
      split
      · rw [Draft.seen_put]
        refine h.insert (fun hrow => ?_) (fun hoperation heq => ?_) fun _ id hid => ?_
        · obtain ⟨horder, hproduct, hpromo⟩ := h.row hrow
          exact ⟨fun heq => horder (heq ▸ hk), fun heq => hproduct (heq ▸ hk),
            fun heq => hpromo (heq ▸ hk)⟩
        · exact h.operation hoperation (heq ▸ hk)
        · exact mem_itemIDs_iff.mpr ⟨k, row, hlookup, hset row id hid⟩
      · exact h

/-- The row that is inserted under the drawn key. -/
theorem Draw.Supplies.put (h : draw.Supplies keys t.seen) {k : Key} {row : Row k}
    (hk : k = .order draw.id ∨ k = .product draw.id ∨ k = .promo draw.id) :
    draw.Supplies { keys with row := false } (t.put k row).seen := by
  have hdrawn : ∀ {P : Prop}, false = true → P := fun heq => absurd heq Bool.false_ne_true
  rw [Draft.seen_put]
  rcases hk with rfl | rfl | rfl
  · exact h.withoutRow.insert hdrawn (fun _ => by simp) fun _ _ hid => by cases hid
  · exact h.withoutRow.insert hdrawn (fun _ => by simp) fun _ _ hid => by cases hid
  · exact h.withoutRow.insert hdrawn (fun _ => by simp) fun _ _ hid => by cases hid

/-- Every statement can be executed when its keys are new. -/
theorem Draw.Supplies.effect (h : draw.Supplies keys t.seen) {statement : Statement}
    (hafter : keys.after statement = some keys') :
    ∃ answer t', onDraft draw statement t = some (answer, t') ∧ draw.Supplies keys' t'.seen := by
  have hreads : ∀ {value : Result statement}, answerOf t.seen statement = some value →
      keys.after statement = some keys → ∃ answer t', onDraft draw statement t =
        some (answer, t') ∧ draw.Supplies keys' t'.seen := by
    intro value hvalue hsame
    rw [hsame, Option.some.injEq] at hafter
    exact ⟨_, t, effect_read hvalue, hafter ▸ h⟩
  cases statement with
  | selectUser id => exact hreads rfl rfl
  | selectLastOperation userID operationType => exact hreads rfl rfl
  | selectActiveOrder userID => exact hreads rfl rfl
  | selectProductsForUpdate ids => exact hreads rfl rfl
  | selectProduct id => exact hreads rfl rfl
  | selectPromoByCode code => exact hreads rfl rfl
  | selectPromo id => exact hreads rfl rfl
  | selectOrder id => exact hreads rfl rfl
  | selectItems orderID => exact hreads rfl rfl
  | refreshOrder id => exact hreads rfl rfl
  | refreshProduct id => exact hreads rfl rfl
  | refreshPromo id => exact hreads rfl rfl
  | now =>
      obtain rfl := Option.some.inj hafter
      exact ⟨_, t, rfl, h⟩
  | updateStock id stock =>
      obtain rfl := Option.some.inj hafter
      exact ⟨_, _, rfl, h.update _ _ _ fun _ _ hid => hid⟩
  | updateUses id uses =>
      obtain rfl := Option.some.inj hafter
      exact ⟨_, _, rfl, h.update _ _ _ fun _ _ hid => hid⟩
  | updateOrder id change =>
      obtain rfl := Option.some.inj hafter
      exact ⟨_, _, rfl, h.update _ _ _ fun _ _ hid => hid⟩
  | deleteItems orderID ids =>
      obtain rfl := Option.some.inj hafter
      refine ⟨_, _, rfl, h.update _ _ _ fun items id hid => ?_⟩
      obtain ⟨item, hitem, rfl⟩ := List.mem_map.mp hid
      exact List.mem_map.mpr ⟨item, (List.mem_filter.mp hitem).1, rfl⟩
  | commit =>
      obtain rfl := Option.some.inj hafter
      refine ⟨_, _, rfl, ?_⟩
      rw [Draft.seen_of_written]
      exact h
  | updateProduct id change =>
      obtain rfl := Option.some.inj hafter
      simp only [onDraft, Draft.effect]
      split
      · split
        · exact ⟨_, _, rfl, h⟩
        · exact ⟨_, _, rfl, h.update _ _ _ fun _ _ hid => hid⟩
      · exact ⟨_, _, rfl, h⟩
  | insertOrder order =>
      obtain ⟨hleft, hkeys⟩ := Option.ite_none_right_eq_some.mp hafter
      obtain rfl := Option.some.inj hkeys
      simp only [onDraft, Draft.effect, Draft.insert, (h.row hleft).1, if_false, Option.map_some]
      split
      · exact ⟨_, _, rfl, h.put (Or.inl rfl)⟩
      · exact ⟨_, _, rfl, h.withoutRow⟩
  | insertProduct product =>
      obtain ⟨hleft, hkeys⟩ := Option.ite_none_right_eq_some.mp hafter
      obtain rfl := Option.some.inj hkeys
      simp only [onDraft, Draft.effect, Draft.insert, (h.row hleft).2.1, if_false, Option.map_some]
      split
      · exact ⟨_, _, rfl, h.put (Or.inr (Or.inl rfl))⟩
      · exact ⟨_, _, rfl, h.withoutRow⟩
  | insertPromo promo =>
      obtain ⟨hleft, hkeys⟩ := Option.ite_none_right_eq_some.mp hafter
      obtain rfl := Option.some.inj hkeys
      simp only [onDraft, Draft.effect, (h.row hleft).2.2, if_false]
      split
      · split
        · exact ⟨_, _, rfl, h.withoutRow⟩
        · exact ⟨_, _, rfl, h.put (Or.inr (Or.inr rfl))⟩
      · exact ⟨_, _, rfl, h.withoutRow⟩
  | insertOperation userID operationType =>
      obtain ⟨hleft, hkeys⟩ := Option.ite_none_right_eq_some.mp hafter
      obtain rfl := Option.some.inj hkeys
      have hrest : draw.Supplies { keys with operation := false } t.seen :=
        ⟨h.row, fun heq => absurd heq Bool.false_ne_true, h.items⟩
      simp only [onDraft, Draft.effect, Draft.insert, h.operation hleft, if_false, Option.map_some]
      refine ⟨_, _, rfl, ?_⟩
      rw [Draft.seen_put]
      exact hrest.insert (fun _ => by simp) (fun heq => absurd heq Bool.false_ne_true)
        fun _ _ hid => by cases hid
  | insertItems orderID lines =>
      obtain ⟨hleft, hkeys⟩ := Option.ite_none_right_eq_some.mp hafter
      obtain rfl := Option.some.inj hkeys
      obtain ⟨hlength, hnodup, hnew⟩ := h.items lines.length hleft
      have hfresh : freshIDs t.seen draw.itemIDs lines = true := by
        simp only [freshIDs, hlength, hnodup, decide_true, Bool.and_self, Bool.true_and,
          List.all_eq_true, decide_eq_true_eq]
        exact hnew
      have hrest : draw.Supplies { keys with items := none } t.seen :=
        ⟨h.row, h.operation, fun n hn => by cases hn⟩
      simp only [onDraft, Draft.effect, hfresh, if_true]
      refine ⟨_, _, rfl, ?_⟩
      rw [Draft.seen_put]
      exact hrest.insert (fun _ => by simp) (fun _ => by simp) fun hitems => absurd rfl hitems

/-! ## The handlers -/

/-- The handler draws no more keys than `keys`. -/
abbrev Draws {α : Type} (keys : Keys) (p : Handler α) : Prop :=
  p.Obeys (fun statement _ keys => keys.after statement) (fun _ _ => True) keys

/-- A statement that draws no key. -/
def Statement.quiet (statement : Statement) : Prop :=
  ∀ keys : Keys, keys.after statement = some keys

section Handlers

variable {α β : Type} {p : Handler α} {f : α → Handler β}

theorem draws_of_quiet (hp : p.Uses Statement.quiet) : Draws keys p :=
  (Program.obeys_of_uses hp fun _ _ h => h keys).mono fun _ _ _ => trivial

theorem draws_bind (hp : p.Uses Statement.quiet) (hf : ∀ value, Draws keys (f value)) :
    Draws keys (p >>= f) := by
  refine Program.obeys_bind (Program.obeys_of_uses hp fun _ _ h => h keys) ?_
  rintro value _ rfl
  exact hf value

theorem draws_query {statement : Statement} {next : Result statement → Handler β}
    (h : keys.after statement = some keys') (hnext : ∀ result, Draws keys' (next result)) :
    Draws keys (query statement >>= next) := by
  intro answer
  refine ⟨keys', h, ?_⟩
  cases answer with
  | ok result => exact hnext result
  | error error => trivial

theorem quiet_of_looks (hp : p.Uses fun statement => statement.looks = true) :
    p.Uses Statement.quiet := by
  apply hp.mono
  intro statement hlooks keys
  cases statement with
  | insertOrder => cases hlooks
  | insertProduct => cases hlooks
  | insertPromo => cases hlooks
  | insertOperation => cases hlooks
  | insertItems => cases hlooks
  | _ => rfl

theorem quiet_flushStocks (changes : List (Uuid × Int)) :
    (flushStocks changes).Uses Statement.quiet :=
  uses_flushStocks changes fun _ _ _ => rfl

theorem quiet_orderResponse (id : Uuid) : (orderResponse id).Uses Statement.quiet :=
  uses_orderResponse (fun _ => rfl) fun _ => rfl

theorem quiet_query {statement : Statement} (h : statement.quiet) :
    (query statement).Uses Statement.quiet := uses_query h

theorem length_of_placeItems {products : ProductMap} {items : List OrderItemCreate}
    {placement : Placement} (h : placeItems products items = .ok placement) :
    placement.lines.length = items.length := by
  have hplaced := placeItems_placed h
  have hlines := congrArg List.length (priceItems_lines fun item hitem => by
    obtain ⟨product, hproduct, _⟩ := hplaced.found item hitem
    exact ⟨product, hproduct⟩)
  rwa [requestLines, List.length_map, List.length_map, ← hplaced.lines] at hlines

theorem draws_placeItems {products : ProductMap} {items : List OrderItemCreate}
    {next : Placement → Handler β}
    (hnext : ∀ placement, placement.lines.length = items.length → Draws keys (next placement)) :
    Draws keys (returnApi (placeItems products items) >>= next) := by
  cases hplace : placeItems products items with
  | error error => trivial
  | ok placement => exact hnext placement (length_of_placeItems hplace)

theorem draws_createOrder (settings : Settings) (subject : Uuid) (payload : OrderCreateRequest) :
    Draws (Request.createOrder subject payload).keys (createOrder settings subject payload) := by
  have hfinish : ∀ placement order, placement.lines.length = payload.items.length →
      Draws (Request.createOrder subject payload).keys
        (createOrder.finish subject placement order) := by
    intro placement order hlength
    refine draws_query rfl fun id => ?_
    refine draws_query (if_pos (by rw [hlength]; rfl)) fun _ => ?_
    refine draws_query rfl fun _ => ?_
    exact draws_bind (quiet_query fun _ => rfl) fun _ => draws_of_quiet (quiet_orderResponse id)
  refine draws_bind (quiet_of_looks (looks_requireRoles _ subject)) fun _ => ?_
  refine draws_bind (quiet_of_looks (looks_checkRateLimit subject _)) fun _ => ?_
  refine draws_bind (quiet_query fun _ => rfl) fun _ => ?_
  refine draws_bind (uses_raiseIf _ _) fun _ => ?_
  refine draws_bind (quiet_query fun _ => rfl) fun _ => ?_
  refine draws_placeItems fun placement hlength => ?_
  cases payload.promoCode with
  | none => exact draws_bind (quiet_flushStocks _) fun _ => hfinish _ _ hlength
  | some code =>
      refine draws_bind (quiet_of_looks (looks_applyPromo code _)) fun applied => ?_
      obtain ⟨promoID, promo, discount⟩ := applied
      refine draws_bind (quiet_flushStocks _) fun _ => ?_
      refine draws_bind (uses_flushUses promo _ fun _ => rfl) fun _ => ?_
      exact hfinish _ _ hlength

theorem draws_updateOrder (settings : Settings) (subject id : Uuid)
    (payload : OrderUpdateRequest) :
    Draws (Request.updateOrder subject id payload).keys
      (updateOrder settings subject id payload) := by
  have hfinish : ∀ order items placement assigned,
      placement.lines.length = payload.items.length →
        Draws (Request.updateOrder subject id payload).keys
          (updateOrder.finish subject id order items placement assigned) := by
    intro order items placement assigned hlength
    refine draws_bind (uses_flushOrder order assigned fun _ _ => rfl) fun _ => ?_
    refine draws_query (if_pos (by rw [hlength]; rfl)) fun _ => ?_
    refine draws_bind (quiet_query fun _ => rfl) fun _ => ?_
    refine draws_query rfl fun _ => ?_
    exact draws_bind (quiet_query fun _ => rfl) fun _ => draws_of_quiet (quiet_orderResponse id)
  refine draws_bind (quiet_of_looks (looks_requireRoles _ subject)) fun user => ?_
  refine draws_bind (quiet_of_looks (looks_loadOrder subject user id)) fun order => ?_
  refine draws_bind (uses_raiseIf _ _) fun _ => ?_
  refine draws_bind (quiet_of_looks (looks_checkRateLimit subject _)) fun _ => ?_
  refine draws_bind (quiet_query fun _ => rfl) fun items => ?_
  refine draws_bind (quiet_query fun _ => rfl) fun _ => ?_
  refine draws_placeItems fun placement hlength => ?_
  cases order.promoCodeID with
  | none => exact draws_bind (quiet_flushStocks _) fun _ => hfinish _ _ _ _ hlength
  | some promoID =>
      refine draws_bind (quiet_query fun _ => rfl) fun found => ?_
      refine draws_bind (uses_require _ found) fun promo => ?_
      refine draws_bind (quiet_query fun _ => rfl) fun _ => ?_
      refine draws_bind (uses_returnApi _) fun _ => ?_
      split
      · refine draws_bind (quiet_flushStocks _) fun _ => ?_
        refine draws_bind (uses_flushUses promo _ fun _ => rfl) fun _ => ?_
        exact hfinish _ _ _ _ hlength
      · refine draws_bind (uses_returnApi _) fun _ => ?_
        exact draws_bind (quiet_flushStocks _) fun _ => hfinish _ _ _ _ hlength

theorem draws_cancelOrder (subject id : Uuid) : Draws keys (cancelOrder subject id) := by
  have hfinish : ∀ order, Draws keys (cancelOrder.finish id order) := by
    intro order
    refine draws_bind (uses_flushOrder order _ fun _ _ => rfl) fun _ => ?_
    exact draws_bind (quiet_query fun _ => rfl) fun _ => draws_of_quiet (quiet_orderResponse id)
  refine draws_bind (quiet_of_looks (looks_requireRoles _ subject)) fun user => ?_
  refine draws_bind (quiet_of_looks (looks_loadOrder subject user id)) fun order => ?_
  refine draws_bind (uses_raiseIf _ _) fun _ => ?_
  refine draws_bind (quiet_query fun _ => rfl) fun items => ?_
  refine draws_bind (quiet_query fun _ => rfl) fun _ => ?_
  cases order.promoCodeID with
  | none => exact draws_bind (quiet_flushStocks _) fun _ => hfinish order
  | some promoID =>
      refine draws_bind (quiet_query fun _ => rfl) fun found => ?_
      cases found with
      | none => exact draws_bind (quiet_flushStocks _) fun _ => hfinish order
      | some promo =>
          refine draws_bind (quiet_flushStocks _) fun _ => ?_
          exact draws_bind (uses_flushUses promo _ fun _ => rfl) fun _ => hfinish order

theorem quiet_productResponse (id : Uuid) : (productResponse id).Uses Statement.quiet := by
  refine Program.uses_bind (quiet_query fun _ => rfl) fun found => ?_
  cases found with
  | none => trivial
  | some product => trivial

theorem draws_createProduct (subject : Uuid) (payload : ProductCreate) :
    Draws (Request.createProduct subject payload).keys (createProduct subject payload) := by
  refine draws_bind (quiet_of_looks (looks_requireRoles _ subject)) fun user => ?_
  refine draws_bind (quiet_of_looks (looks_productSeller subject user payload)) fun _ => ?_
  refine draws_query rfl fun id => ?_
  refine draws_bind (quiet_query fun _ => rfl) fun _ => ?_
  exact draws_of_quiet (quiet_productResponse id)

theorem quiet_flushProduct (id : Uuid) (change : ProductChange) :
    (flushProduct id change).Uses Statement.quiet := by
  rw [flushProduct]
  split
  · trivial
  · exact quiet_query fun _ => rfl

theorem draws_updateProduct (subject id : Uuid) (payload : ProductUpdate) :
    Draws keys (updateProduct subject id payload) := by
  refine draws_bind (quiet_of_looks (looks_requireRoles _ subject)) fun user => ?_
  refine draws_bind (quiet_of_looks (looks_loadProduct subject user id)) fun _ => ?_
  refine draws_bind (quiet_flushProduct id _) fun _ => ?_
  exact draws_bind (quiet_query fun _ => rfl) fun _ => draws_of_quiet (quiet_productResponse id)

theorem draws_deleteProduct (subject id : Uuid) : Draws keys (deleteProduct subject id) := by
  refine draws_bind (quiet_of_looks (looks_requireRoles _ subject)) fun user => ?_
  refine draws_bind (quiet_of_looks (looks_loadProduct subject user id)) fun _ => ?_
  refine draws_bind (quiet_flushProduct id _) fun _ => ?_
  exact draws_bind (quiet_query fun _ => rfl) fun _ => trivial

theorem draws_createPromoCode (subject : Uuid) (payload : PromoCodeCreate) :
    Draws (Request.createPromoCode subject payload).keys (createPromoCode subject payload) := by
  refine draws_bind (quiet_of_looks (looks_requireRoles _ subject)) fun _ => ?_
  refine draws_query rfl fun id => ?_
  refine draws_bind (quiet_query fun _ => rfl) fun _ => ?_
  refine draws_bind (quiet_query fun _ => rfl) fun found => ?_
  cases found with
  | none => trivial
  | some promo => trivial

end Handlers

theorem draws_handle (settings : Settings) (request : Request) :
    Draws request.keys (handle settings request) := by
  cases request with
  | createProduct subject payload => exact draws_createProduct subject payload
  | updateProduct subject id payload => exact draws_updateProduct subject id payload
  | deleteProduct subject id => exact draws_deleteProduct subject id
  | createOrder subject payload => exact draws_createOrder settings subject payload
  | updateOrder subject id payload => exact draws_updateOrder settings subject id payload
  | cancelOrder subject id => exact draws_cancelOrder subject id
  | createPromoCode subject payload => exact draws_createPromoCode subject payload

/-- A request whose keys are new is answered. -/
theorem serve_isSome (settings : Settings) {request : Request}
    (h : draw.Supplies request.keys rows) :
    (request.serve settings draw rows).isSome = true := by
  have hstart : draw.Supplies request.keys (⟨rows, ∅⟩ : Draft).seen := by
    rwa [Draft.seen, AList.empty_union]
  rw [serve_eq, Option.isSome_map]
  refine Program.Obeys.alone_ends (I := fun keys (t : Draft) => draw.Supplies keys t.seen)
    (fun statement keys t hsupplies hallowed => ?_) (draws_handle settings request) hstart
  obtain ⟨keys', hafter⟩ := Option.isSome_iff_exists.mp (hallowed (.error .failure))
  obtain ⟨answer, t', heffect, hsupplies'⟩ := hsupplies.effect hafter
  refine ⟨answer, t', heffect, fun keys'' hafter' => ?_⟩
  obtain rfl := Option.some.inj (hafter.symm.trans hafter')
  exact hsupplies'

end SoaHomework.Marketplace

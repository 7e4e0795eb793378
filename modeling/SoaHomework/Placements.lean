import SoaHomework.OrderLines

/-!
# Placing the lines of an order

An update gives the present items of the order back and places those of the request
over the same loaded products. How far a stock moves is the difference of the two
totals (`lookup_products_placed`), and lines with the same totals are placed alike
(`placedAlike`).
-/

namespace SoaHomework.Marketplace

open StatementProgram

/-- The order lines of the placed items. -/
def placedLines (lines : List ItemLine) : List (Uuid × Int) :=
  lines.map fun line => (line.productID, line.quantity)

variable {items items' : List OrderItemCreate} {products products' : ProductMap}

theorem placeable_iff (h : SameTotals (requestLines items) (requestLines items'))
    (hproducts : ∀ p ∈ (requestedTotals items).map Prod.fst,
      products'.lookup p = products.lookup p) :
    Placeable products' items' ↔ Placeable products items := by
  have hperm := requestedTotals_perm h
  constructor
  · intro hplace line hline
    rw [← hproducts line.1 (List.mem_map.mpr ⟨line, hline, rfl⟩)]
    exact hplace line (hperm.mem_iff.mp hline)
  · intro hplace line hline
    have hmem := hperm.mem_iff.mpr hline
    rw [hproducts line.1 (List.mem_map.mpr ⟨line, hmem, rfl⟩)]
    exact hplace line hmem

theorem linesTotal_congr (h : SameTotals (requestLines items) (requestLines items'))
    (hproducts : ∀ p ∈ (requestedTotals items).map Prod.fst,
      products'.lookup p = products.lookup p) :
    linesTotal (priceItems products' items') = linesTotal (priceItems products items) := by
  have hprice : (requestedTotals items).map (fun line => priceOf products' line.1 * (line.2 : ℚ)) =
      (requestedTotals items).map fun line => priceOf products line.1 * (line.2 : ℚ) := by
    apply List.map_congr_left
    intro line hline
    rw [priceOf, hproducts line.1 (List.mem_map.mpr ⟨line, hline, rfl⟩), priceOf]
  rw [linesTotal_priceItems, linesTotal_priceItems, ← hprice]
  exact ((requestedTotals_perm h).map _).sum_eq.symm

theorem placedLines_priceItems (h : Placeable products items) :
    placedLines (priceItems products items) = requestLines items := by
  apply priceItems_lines
  intro item hitem
  obtain ⟨line, hline, hid⟩ := List.mem_map.mp (mem_requestedTotals hitem)
  obtain ⟨p, hp, _⟩ := h line hline
  exact ⟨p, hid ▸ hp⟩

/-- A product that is not requested has a total of zero. -/
theorem requested_of_ne_zero {p : Uuid} (h : quantityOf p (requestLines items) ≠ 0) :
    p ∈ (requestedTotals items).map Prod.fst := by
  by_contra hnone
  have hzero := quantityOf_eq_zero hnone
  rw [quantityOf_requestedTotals] at hzero
  exact h hzero

/-- The stocks to be flushed depend on the rows and on what has moved. -/
theorem changedStocks_perm {rows rows' : Rows} {ids ids' : List Uuid} {moved : Uuid → Int}
    (hrows : ∀ p, rows'.lookup (.product p) = rows.lookup (.product p))
    (hproducts : ∀ p, products.lookup p =
      ((productMap rows ids).lookup p).map fun product => product.addStock (moved p))
    (hids : ∀ p, moved p ≠ 0 → p ∈ ids)
    (hproducts' : ∀ p, products'.lookup p =
      ((productMap rows' ids').lookup p).map fun product => product.addStock (moved p))
    (hids' : ∀ p, moved p ≠ 0 → p ∈ ids') :
    (changedStocks (productMap rows ids) products).Perm
      (changedStocks (productMap rows' ids') products') := by
  apply (List.perm_ext_iff_of_nodup (nodup_changedStocks _ _).of_map
    (nodup_changedStocks _ _).of_map).mpr
  intro change
  rw [mem_changedStocks_iff hproducts hids, mem_changedStocks_iff hproducts' hids', hrows]

/-- The ids of the loaded products cover the request and the returned items. -/
structure Covers (ids : List Uuid) (items : List OrderItemCreate) (returned : List OrderItem) :
    Prop where
  requested : ∀ p ∈ (requestedTotals items).map Prod.fst, p ∈ ids
  returned : ∀ p ∈ returned.map OrderItem.productID, p ∈ ids

/-- What becomes of the loaded products when `returned` is given back and `items` are
    placed. -/
def placed (loaded : ProductMap) (returned : List OrderItem) (items : List OrderItemCreate) :
    Placement :=
  ⟨deduct (giveBack loaded returned) (requestedTotals items),
    priceItems (giveBack loaded returned) items⟩

/-- How far a placement moves the stock of a product. -/
def movedStock (returned : List OrderItem) (items : List OrderItemCreate) (p : Uuid) : Int :=
  quantityOf p (itemLines returned) - quantityOf p (requestLines items)

theorem lookup_products_placed (loaded : ProductMap) (returned : List OrderItem)
    (items : List OrderItemCreate) (p : Uuid) :
    (placed loaded returned items).products.lookup p =
      (loaded.lookup p).map fun product => product.addStock (movedStock returned items p) := by
  rw [placed, lookup_deduct, lookup_giveBack, Option.map_map, quantityOf_requestedTotals]
  congr 1
  funext product
  exact product.addStock_addStock _ _

theorem Covers.of_moved {ids : List Uuid} {returned : List OrderItem}
    (h : Covers ids items returned) {p : Uuid} (hmoved : movedStock returned items p ≠ 0) :
    p ∈ ids := by
  by_cases hrequested : quantityOf p (requestLines items) = 0
  · apply h.returned p
    by_contra hnone
    apply hmoved
    have hkeys : p ∉ (itemLines returned).map Prod.fst := by
      rwa [itemLines, List.map_map]
    rw [movedStock, quantityOf_eq_zero hkeys, hrequested, Int.sub_zero]
  · exact h.requested p (requested_of_ne_zero hrequested)

/-- The placements cost the same and move the stocks alike. -/
structure PlacedAlike (loaded loaded' : ProductMap) (placement placement' : Placement) : Prop where
  lines : SameTotals (placedLines placement.lines) (placedLines placement'.lines)
  total : linesTotal placement'.lines = linesTotal placement.lines
  stocks : (changedStocks loaded placement.products).Perm
    (changedStocks loaded' placement'.products)

variable {rows rows' : Rows} {ids ids' : List Uuid} {returned returned' : List OrderItem}

theorem SameTotals.keys (h : SameTotals (requestLines items) (requestLines items')) (p : Uuid) :
    p ∈ (requestedTotals items').map Prod.fst ↔ p ∈ (requestedTotals items).map Prod.fst :=
  ((requestedTotals_perm h).map Prod.fst).mem_iff.symm

/-- The same products are offered to both requests. -/
theorem lookup_offered (hrows : ∀ p, rows'.lookup (.product p) = rows.lookup (.product p))
    (hreturned : SameTotals (itemLines returned) (itemLines returned'))
    (hids : Covers ids items returned) (hids' : Covers ids' items' returned')
    (hlines : SameTotals (requestLines items) (requestLines items')) :
    ∀ p ∈ (requestedTotals items).map Prod.fst,
      (giveBack (productMap rows' ids') returned').lookup p =
        (giveBack (productMap rows ids) returned).lookup p := by
  intro p hp
  rw [lookup_giveBack, lookup_giveBack, lookup_productMap, lookup_productMap,
    if_pos (hids.requested p hp), if_pos (hids'.requested p ((hlines.keys p).mpr hp)), hrows,
    hreturned p]

theorem placedAlike (hrows : ∀ p, rows'.lookup (.product p) = rows.lookup (.product p))
    (hreturned : SameTotals (itemLines returned) (itemLines returned'))
    (hids : Covers ids items returned) (hids' : Covers ids' items' returned')
    (hlines : SameTotals (requestLines items) (requestLines items'))
    (hplace : Placeable (giveBack (productMap rows ids) returned) items)
    (hplace' : Placeable (giveBack (productMap rows' ids') returned') items') :
    PlacedAlike (productMap rows ids) (productMap rows' ids')
      (placed (productMap rows ids) returned items)
      (placed (productMap rows' ids') returned' items') := by
  have hmoved : ∀ p, movedStock returned' items' p = movedStock returned items p := by
    intro p
    rw [movedStock, movedStock, hreturned p, hlines p]
  constructor
  · rw [placed, placed, placedLines_priceItems hplace, placedLines_priceItems hplace']
    exact hlines
  · exact linesTotal_congr hlines (lookup_offered hrows hreturned hids hids' hlines)
  · apply changedStocks_perm hrows (lookup_products_placed _ returned items) fun p => hids.of_moved
    · intro p
      rw [lookup_products_placed, hmoved p]
    · intro p hp
      rw [← hmoved p] at hp
      exact hids'.of_moved hp

/-! ## The rows of the items -/

section Items

variable {draw : Draw} {t t' : Draft}

/-- The items of the order are those it had and `new`. -/
structure Inserted (id : Uuid) (lines : List ItemLine) (old new : List OrderItem)
    (before t : Draft) : Prop where
  lines : itemLines new = placedLines lines
  fresh : ∀ item ∈ new, item.id ∉ old.map OrderItem.id
  put : t = before.put (.items id) (old ++ new)

theorem inserted_newItems (id : Uuid) {ids : List Uuid} {lines : List ItemLine}
    (h : freshIDs t.seen ids lines = true) :
    Inserted id lines (itemsOf t.seen id) (newItems ids lines) t
      (t.put (.items id) (itemsOf t.seen id ++ newItems ids lines)) := by
  simp only [freshIDs, Bool.and_eq_true, decide_eq_true_eq, List.all_eq_true] at h
  obtain ⟨⟨hlength, _⟩, hnew⟩ := h
  refine ⟨newItems_lines hlength, ?_, rfl⟩
  intro item hitem hmem
  obtain ⟨old, hold, heq⟩ := List.mem_map.mp hmem
  rw [itemsOf] at hold
  cases hrow : t.seen.lookup (.items id) with
  | none =>
      rw [hrow] at hold
      exact absurd hold List.not_mem_nil
  | some row =>
      rw [hrow] at hold
      apply hnew item.id (newItems_ids hitem)
      rw [← heq]
      exact mem_itemIDs hrow hold

theorem effect_insertItems {id : Uuid} {lines : List ItemLine} {answer : Except DbError Unit}
    (h : onDraft draw (.insertItems id lines) t = some (answer, t')) :
    answer = .ok () ∧ ∃ new, Inserted id lines (itemsOf t.seen id) new t t' := by
  simp only [onDraft, Draft.effect] at h
  split at h
  · rename_i hfresh
    cases h
    exact ⟨rfl, _, inserted_newItems id hfresh⟩
  · cases h

theorem filter_inserted {old new : List OrderItem}
    (h : ∀ item ∈ new, item.id ∉ old.map OrderItem.id) :
    (old ++ new).filter (fun item => decide (item.id ∉ old.map OrderItem.id)) = new := by
  rw [List.filter_append]
  have hold : old.filter (fun item => decide (item.id ∉ old.map OrderItem.id)) = [] := by
    apply List.filter_eq_nil_iff.mpr
    intro item hitem hkept
    exact of_decide_eq_true hkept (List.mem_map.mpr ⟨item, hitem, rfl⟩)
  have hnew : new.filter (fun item => decide (item.id ∉ old.map OrderItem.id)) = new := by
    apply List.filter_eq_self.mpr
    intro item hitem
    exact decide_eq_true (h item hitem)
  rw [hold, hnew, List.nil_append]

/-- Deleting the old items leaves the new ones. -/
theorem Inserted.delete {id : Uuid} {lines : List ItemLine} {old new : List OrderItem}
    {before : Draft} (h : Inserted id lines old new before t) :
    onDraft draw (.deleteItems id (old.map OrderItem.id)) t =
      some (.ok (), t.put (.items id) new) := by
  have hrow : t.seen.lookup (.items id) = some (old ++ new) := by
    rw [h.put, Draft.seen_put]
    exact AList.lookup_insert _
  have hupdate : t.update (.items id) (fun items : List OrderItem =>
      items.filter fun item => decide (item.id ∉ old.map OrderItem.id)) (fun _ => true) =
        (.ok (), t.put (.items id)
          ((old ++ new).filter fun item => decide (item.id ∉ old.map OrderItem.id))) :=
    Draft.update_ok hrow rfl
  rw [filter_inserted h.fresh] at hupdate
  simp only [onDraft, Draft.effect, hupdate]

end Items

end SoaHomework.Marketplace

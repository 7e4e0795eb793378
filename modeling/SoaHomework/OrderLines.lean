import SoaHomework.RequestsAlone

/-!
# Order lines by their totals

What the order handlers do with the lines of a request depends on the total of each
product only (`requestedTotals_perm`): whether the lines can be placed
(`placeItems_eq`), what they cost (`linesTotal_priceItems`) and which stocks are
flushed (`mem_changedStocks_iff`). A flush writes all of them or fails
(`alone_flushStocks`).
-/

namespace SoaHomework.Marketplace

open StatementProgram

/-- The lines have the same total quantity of each product. -/
def SameTotals (lines lines' : List (Uuid × Int)) : Prop :=
  ∀ p, quantityOf p lines = quantityOf p lines'

/-! ## The requested totals -/

theorem one_le_addRequested {id : Uuid} {quantity : Int} {totals : List (Uuid × Int)}
    (hquantity : 1 ≤ quantity) (h : ∀ line ∈ totals, 1 ≤ line.2) :
    ∀ line ∈ addRequested id quantity totals, 1 ≤ line.2 := by
  induction totals with
  | nil =>
      intro line hline
      rw [List.mem_singleton.mp hline]
      exact hquantity
  | cons first totals ih =>
      have hfirst := h first List.mem_cons_self
      have hrest : ∀ line ∈ totals, 1 ≤ line.2 :=
        fun line hline => h line (List.mem_cons_of_mem first hline)
      intro line hline
      rw [addRequested] at hline
      split at hline
      · rcases List.mem_cons.mp hline with rfl | hmem
        · simp only
          omega
        · exact hrest line hmem
      · rcases List.mem_cons.mp hline with rfl | hmem
        · exact hfirst
        · exact ih hrest line hmem

theorem one_le_requestedTotals (items : List OrderItemCreate) :
    ∀ line ∈ requestedTotals items, 1 ≤ line.2 := by
  have hfold : ∀ totals : List (Uuid × Int), (∀ line ∈ totals, 1 ≤ line.2) →
      ∀ line ∈ items.foldl (fun totals item =>
        addRequested item.productID item.quantity totals) totals, 1 ≤ line.2 := by
    induction items with
    | nil => exact fun totals h => h
    | cons item items ih =>
        intro totals h
        exact ih _ (one_le_addRequested item.minimum h)
  exact hfold [] nofun

theorem mem_requestedTotals_iff {items : List OrderItemCreate} {line : Uuid × Int} :
    line ∈ requestedTotals items ↔
      line.2 = quantityOf line.1 (requestLines items) ∧ 1 ≤ line.2 := by
  constructor
  · intro h
    refine ⟨?_, one_le_requestedTotals items line h⟩
    rw [← quantityOf_requestedTotals, quantityOf_of_mem (nodup_requestedTotals items) h]
  · rintro ⟨hquantity, hpos⟩
    have hkey : line.1 ∈ (requestedTotals items).map Prod.fst := by
      by_contra hnone
      have hzero := quantityOf_eq_zero hnone
      rw [quantityOf_requestedTotals] at hzero
      omega
    obtain ⟨⟨p, total⟩, hmem, hp⟩ := List.mem_map.mp hkey
    obtain rfl : p = line.1 := hp
    have htotal := quantityOf_of_mem (nodup_requestedTotals items) hmem
    rw [quantityOf_requestedTotals, ← hquantity] at htotal
    rw [← htotal] at hmem
    exact hmem

/-- Requests with the same totals add up to the same totals, in some order. -/
theorem requestedTotals_perm {items items' : List OrderItemCreate}
    (h : SameTotals (requestLines items) (requestLines items')) :
    (requestedTotals items).Perm (requestedTotals items') := by
  apply (List.perm_ext_iff_of_nodup (nodup_requestedTotals items).of_map
    (nodup_requestedTotals items').of_map).mpr
  intro line
  rw [mem_requestedTotals_iff, mem_requestedTotals_iff, h line.1]

/-! ## Placing -/

/-- Every requested product is there, active and in stock. -/
def Placeable (products : ProductMap) (items : List OrderItemCreate) : Prop :=
  ∀ line ∈ requestedTotals items, ∃ p, products.lookup line.1 = some p ∧ p.status = .active ∧
    line.2 ≤ p.stock

theorem checkProducts_ok {products : ProductMap} {requested : List (Uuid × Int)}
    (h : ∀ line ∈ requested, ∃ p, products.lookup line.1 = some p ∧ p.status = .active) :
    checkProducts products requested = .ok () := by
  induction requested with
  | nil => rfl
  | cons line requested ih =>
      obtain ⟨p, hp, hactive⟩ := h line List.mem_cons_self
      simp only [checkProducts, hp, if_pos hactive]
      exact ih fun line' hline' => h line' (List.mem_cons_of_mem line hline')

theorem shortages_eq_nil {products : ProductMap} {requested : List (Uuid × Int)}
    (h : ∀ line ∈ requested, ∃ p, products.lookup line.1 = some p ∧ line.2 ≤ p.stock) :
    shortages products requested = [] := by
  apply List.filterMap_eq_nil_iff.mpr
  intro line hline
  obtain ⟨p, hp, hstock⟩ := h line hline
  simp only [hp]
  rw [if_neg (by omega)]

theorem placeItems_eq {products : ProductMap} {items : List OrderItemCreate}
    (h : Placeable products items) :
    placeItems products items =
      .ok ⟨deduct products (requestedTotals items), priceItems products items⟩ := by
  have hcheck : checkProducts products (requestedTotals items) = .ok () := by
    apply checkProducts_ok
    intro line hline
    obtain ⟨p, hp, hactive, _⟩ := h line hline
    exact ⟨p, hp, hactive⟩
  have hshort : shortages products (requestedTotals items) = [] := by
    apply shortages_eq_nil
    intro line hline
    obtain ⟨p, hp, _, hstock⟩ := h line hline
    exact ⟨p, hp, hstock⟩
  simp only [placeItems, hcheck, hshort]
  rfl

theorem placeable_of_placeItems {products : ProductMap} {items : List OrderItemCreate}
    {placement : Placement} (h : placeItems products items = .ok placement) :
    Placeable products items := by
  have hplaced := placeItems_placed h
  intro line hline
  obtain ⟨hquantity, hpos⟩ := mem_requestedTotals_iff.mp hline
  have hmem : line.1 ∈ items.map OrderItemCreate.productID := by
    by_contra hnone
    have hzero : quantityOf line.1 (requestLines items) = 0 := by
      apply quantityOf_eq_zero
      rwa [requestLines, List.map_map]
    omega
  obtain ⟨item, hitem, hid⟩ := List.mem_map.mp hmem
  obtain ⟨p, hp, hactive⟩ := hplaced.found item hitem
  rw [hid] at hp
  refine ⟨p, hp, hactive, ?_⟩
  rw [hquantity]
  exact hplaced.sufficient line.1 p hp hmem

theorem exists_error_of_not_placeable {products : ProductMap} {items : List OrderItemCreate}
    (h : ¬ Placeable products items) : ∃ error, placeItems products items = .error error := by
  cases hplace : placeItems products items with
  | ok placement => exact absurd (placeable_of_placeItems hplace) h
  | error error => exact ⟨error, rfl⟩

/-! ## What the lines cost -/

def priceOf (products : ProductMap) (p : Uuid) : ℚ :=
  ((products.lookup p).map Product.price).getD 0

theorem sum_addRequested (price : Uuid → ℚ) (id : Uuid) (quantity : Int)
    (totals : List (Uuid × Int)) :
    ((addRequested id quantity totals).map fun line => price line.1 * (line.2 : ℚ)).sum =
      (totals.map fun line => price line.1 * (line.2 : ℚ)).sum + price id * quantity := by
  induction totals with
  | nil => simp [addRequested]
  | cons first totals ih =>
      rw [addRequested]
      split
      · rename_i heq
        subst heq
        simp only [List.map_cons, List.sum_cons]
        push_cast
        ring
      · simp only [List.map_cons, List.sum_cons, ih]
        ring

theorem sum_requestedTotals (price : Uuid → ℚ) (items : List OrderItemCreate) :
    ((requestedTotals items).map fun line => price line.1 * (line.2 : ℚ)).sum =
      (items.map fun item => price item.productID * (item.quantity : ℚ)).sum := by
  have hfold : ∀ totals : List (Uuid × Int),
      ((items.foldl (fun totals item => addRequested item.productID item.quantity totals)
        totals).map fun line => price line.1 * (line.2 : ℚ)).sum =
        (totals.map fun line => price line.1 * (line.2 : ℚ)).sum +
          (items.map fun item => price item.productID * (item.quantity : ℚ)).sum := by
    induction items with
    | nil => simp
    | cons item items ih =>
        intro totals
        rw [List.foldl_cons, ih, sum_addRequested, List.map_cons, List.sum_cons]
        ring
  simpa [requestedTotals] using hfold []

theorem linesTotal_priceItems (products : ProductMap) (items : List OrderItemCreate) :
    linesTotal (priceItems products items) =
      ((requestedTotals items).map fun line => priceOf products line.1 * (line.2 : ℚ)).sum := by
  rw [sum_requestedTotals]
  induction items with
  | nil => rfl
  | cons item items ih =>
      rw [List.map_cons, List.sum_cons, ← ih, priceItems, List.filterMap_cons]
      cases hp : products.lookup item.productID with
      | none => simp [priceOf, hp, priceItems]
      | some p => simp [priceOf, hp, priceItems, linesTotal]

/-! ## Flushing the stocks -/

/-- The stocks that a flush writes: those of the loaded products that have moved. -/
theorem mem_changedStocks_iff {rows : Rows} {ids : List Uuid} {products : ProductMap}
    {moved : Uuid → Int} (hproducts : ∀ p, products.lookup p =
      ((productMap rows ids).lookup p).map fun product => product.addStock (moved p))
    (hids : ∀ p, moved p ≠ 0 → p ∈ ids) {change : Uuid × Int} :
    change ∈ changedStocks (productMap rows ids) products ↔
      moved change.1 ≠ 0 ∧ ∃ product : Product, rows.lookup (.product change.1) = some product ∧
        change.2 = product.stock + moved change.1 := by
  obtain ⟨p, stock⟩ := change
  rw [mem_changedStocks, hproducts, lookup_productMap]
  constructor
  · rintro ⟨product, hlookup, rfl, hne⟩
    obtain ⟨old, hold, rfl⟩ := Option.map_eq_some_iff.mp hlookup
    rw [hold] at hne
    have hmoved : moved p ≠ 0 := by
      intro hzero
      apply hne
      rw [Option.map_some, Product.addStock_stock, hzero, Int.add_zero]
    refine ⟨hmoved, old, ?_, rfl⟩
    rwa [if_pos (hids p hmoved)] at hold
  · rintro ⟨hmoved, old, hold, hstock⟩
    simp only at hstock hold hmoved
    rw [if_pos (hids p hmoved), hold]
    refine ⟨old.addStock (moved p), rfl, hstock.symm, ?_⟩
    rw [Option.map_some, hstock, ne_eq, Option.some.injEq]
    omega

def Product.withStock (product : Product) (stock : Int) : Product :=
  { product with stock := stock }

/-- Every change is of a row that is there and takes it. -/
def Storable (rows : Rows) (changes : List (Uuid × Int)) : Prop :=
  ∀ change ∈ changes, ∃ product : Product, rows.lookup (.product change.1) = some product ∧
    (product.withStock change.2).fits = true

def Draft.putStock (t : Draft) (change : Uuid × Int) : Draft :=
  match t.seen.lookup (.product change.1) with
  | some product => t.put (.product change.1) (Product.withStock product change.2)
  | none => t

def Draft.putStocks (t : Draft) (changes : List (Uuid × Int)) : Draft :=
  changes.foldl Draft.putStock t

@[simp] theorem Draft.putStock_rows (t : Draft) (change : Uuid × Int) :
    (t.putStock change).rows = t.rows := by
  rw [Draft.putStock]
  split
  · rfl
  · rfl

@[simp] theorem Draft.putStocks_rows (t : Draft) (changes : List (Uuid × Int)) :
    (t.putStocks changes).rows = t.rows := by
  rw [Draft.putStocks]
  induction changes generalizing t with
  | nil => rfl
  | cons change changes ih => rw [List.foldl_cons, ih, Draft.putStock_rows]

theorem Draft.lookup_putStock (t : Draft) (change : Uuid × Int) {k : Key}
    (hk : k ≠ .product change.1) : (t.putStock change).seen.lookup k = t.seen.lookup k := by
  rw [Draft.putStock]
  split
  · rw [Draft.seen_put, AList.lookup_insert_ne hk]
  · rfl

theorem Draft.lookup_putStocks_other (t : Draft) {changes : List (Uuid × Int)} {k : Key}
    (hk : ∀ change ∈ changes, k ≠ .product change.1) :
    (t.putStocks changes).seen.lookup k = t.seen.lookup k := by
  rw [Draft.putStocks]
  induction changes generalizing t with
  | nil => rfl
  | cons change changes ih =>
      rw [List.foldl_cons, ih _ fun change' hmem => hk change' (List.mem_cons_of_mem _ hmem),
        t.lookup_putStock change (hk change List.mem_cons_self)]

theorem Draft.lookup_putStocks (t : Draft) {changes : List (Uuid × Int)}
    (hnodup : (changes.map Prod.fst).Nodup) {change : Uuid × Int} (hmem : change ∈ changes)
    {product : Product} (hrow : t.seen.lookup (.product change.1) = some product) :
    (t.putStocks changes).seen.lookup (.product change.1) =
      some (product.withStock change.2) := by
  rw [Draft.putStocks]
  induction changes generalizing t with
  | nil => cases hmem
  | cons first changes ih =>
      rw [List.map_cons, List.nodup_cons] at hnodup
      rw [List.foldl_cons]
      rcases List.mem_cons.mp hmem with rfl | hrest
      · have hother : ∀ change' ∈ changes, Key.product change.1 ≠ .product change'.1 := by
          intro change' hmem' heq
          exact hnodup.1 (List.mem_map.mpr ⟨change', hmem', (Key.product.inj heq).symm⟩)
        have hput : (t.putStock change).seen.lookup (.product change.1) =
            some (product.withStock change.2) := by
          simp only [Draft.putStock, hrow, Draft.seen_put]
          exact AList.lookup_insert _
        exact ((t.putStock change).lookup_putStocks_other hother).trans hput
      · have hne : Key.product change.1 ≠ .product first.1 := by
          intro heq
          exact hnodup.1 (List.mem_map.mpr ⟨change, hrest, Key.product.inj heq⟩)
        exact ih (t.putStock first) hnodup.2 hrest ((t.lookup_putStock first hne).trans hrow)

theorem Draft.update_ok {t : Draft} {k : Key} {row : Row k} {set : Row k → Row k}
    {check : Row k → Bool} (hrow : t.seen.lookup k = some row) (hcheck : check (set row) = true) :
    t.update k set check = (.ok (), t.put k (set row)) := by
  rw [Draft.update, hrow]
  exact if_pos hcheck

theorem Draft.update_error {t : Draft} {k : Key} {set : Row k → Row k} {check : Row k → Bool}
    (h : ∀ row, t.seen.lookup k = some row → ¬ check (set row) = true) :
    ∃ error, t.update k set check = (.error error, t) := by
  rw [Draft.update]
  cases hrow : t.seen.lookup k with
  | none => exact ⟨_, rfl⟩
  | some row => exact ⟨_, if_neg (h row hrow)⟩

section Flush

variable {draw : Draw} {t : Draft} {changes : List (Uuid × Int)}

theorem storable_tail {change : Uuid × Int} (hnodup : ((change :: changes).map Prod.fst).Nodup) :
    Storable (t.putStock change).seen changes ↔ Storable t.seen changes := by
  have hsame : ∀ change' ∈ changes, (t.putStock change).seen.lookup (.product change'.1) =
      t.seen.lookup (.product change'.1) := by
    intro change' hmem
    apply t.lookup_putStock
    intro heq
    rw [List.map_cons, List.nodup_cons] at hnodup
    exact hnodup.1 (List.mem_map.mpr ⟨change', hmem, Key.product.inj heq⟩)
  constructor
  · intro h change' hmem
    rw [← hsame change' hmem]
    exact h change' hmem
  · intro h change' hmem
    rw [hsame change' hmem]
    exact h change' hmem

theorem alone_flushStocks (hnodup : (changes.map Prod.fst).Nodup) (h : Storable t.seen changes) :
    (flushStocks changes).alone (onDraft draw) t = some (.ok (), t.putStocks changes) := by
  induction changes generalizing t with
  | nil => rfl
  | cons change changes ih =>
      obtain ⟨product, hrow, hfits⟩ := h change List.mem_cons_self
      have hput : t.putStock change =
          t.put (.product change.1) (Product.withStock product change.2) := by
        simp only [Draft.putStock, hrow]
      have hupdate : onDraft draw (.updateStock change.1 change.2) t =
          some (.ok (), t.putStock change) := by
        rw [hput]
        exact congrArg some (Draft.update_ok hrow hfits)
      have hrest : Storable (t.putStock change).seen changes :=
        (storable_tail hnodup).mpr fun change' hmem => h change' (List.mem_cons_of_mem _ hmem)
      rw [flushStocks, alone_query hupdate]
      exact ih hnodup.of_cons hrest

theorem Draft.update_outOfRange {k : Key} {row : Row k} {set : Row k → Row k}
    {check : Row k → Bool} (hrow : t.seen.lookup k = some row) (hcheck : check (set row) = false) :
    t.update k set check = (.error .outOfRange, t) := by
  rw [Draft.update, hrow]
  simp only [hcheck]
  rfl

/-- A flush that fails has committed nothing, and its rows are there or one of them is
    missing. -/
theorem alone_flushStocks_error (draw : Draw) (hnodup : (changes.map Prod.fst).Nodup)
    (h : ¬ Storable t.seen changes) :
    ∃ error t', (flushStocks changes).alone (onDraft draw) t = some (.error error, t') ∧
      t'.rows = t.rows ∧
      ((∀ change ∈ changes, .product change.1 ∈ t.seen) → error = .db .outOfRange) := by
  induction changes generalizing t with
  | nil => exact absurd nofun h
  | cons change changes ih =>
      cases hrow : t.seen.lookup (.product change.1) with
      | none =>
          have hexec : onDraft draw (.updateStock change.1 change.2) t =
              some (.error .noRows, t) := by
            simp only [onDraft, Draft.effect, Draft.update, hrow]
          refine ⟨_, t, by rw [flushStocks, alone_query_error hexec], rfl, fun hmem => ?_⟩
          exact absurd (hmem change List.mem_cons_self) (AList.lookup_eq_none.mp hrow)
      | some product =>
          by_cases hfits : (Product.withStock product change.2).fits = true
          · have hupdate : onDraft draw (.updateStock change.1 change.2) t =
                some (.ok (), t.put (.product change.1) (Product.withStock product change.2)) :=
              congrArg some (Draft.update_ok hrow hfits)
            have hput : t.putStock change =
                t.put (.product change.1) (Product.withStock product change.2) := by
              simp only [Draft.putStock, hrow]
            have hrest : ¬ Storable (t.putStock change).seen changes := by
              rw [storable_tail hnodup]
              intro hrest
              apply h
              intro change' hmem
              rcases List.mem_cons.mp hmem with rfl | hmem
              · exact ⟨product, hrow, hfits⟩
              · exact hrest change' hmem
            rw [flushStocks, alone_query hupdate, ← hput]
            obtain ⟨error, t', hrun, hrows, herror⟩ := ih hnodup.of_cons hrest
            refine ⟨error, t', hrun, hrows.trans (t.putStock_rows change), fun hmem => ?_⟩
            apply herror
            intro change' hmem'
            rw [hput, Draft.seen_put]
            exact (AList.mem_insert _).mpr (Or.inr (hmem change' (List.mem_cons_of_mem _ hmem')))
          · have hupdate : t.update (.product change.1)
                (fun p : Product => p.withStock change.2) Product.fits = (.error .outOfRange, t) :=
              Draft.update_outOfRange hrow (Bool.not_eq_true _ ▸ hfits)
            have hexec : onDraft draw (.updateStock change.1 change.2) t =
                some (.error .outOfRange, t) := congrArg some hupdate
            exact ⟨_, t, by rw [flushStocks, alone_query_error hexec], rfl, fun _ => rfl⟩

end Flush

end SoaHomework.Marketplace

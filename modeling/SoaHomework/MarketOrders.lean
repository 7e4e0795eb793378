import Mathlib.Algebra.BigOperators.Group.List.Lemmas
import SoaHomework.Marketplace

/-!
# What the order handlers compute

The handlers add up duplicate lines when they deduct and go line by line when
they give back; both move the stock of a product by the total quantity of that
product (`quantityOf`). What a session has flushed is then the map it holds in
memory (`lookup_written`).
-/

namespace SoaHomework.Marketplace

open StatementProgram

/-- The total quantity of `p` over lines of product and quantity. -/
def quantityOf (p : Uuid) (lines : List (Uuid × Int)) : Int :=
  (lines.map fun line => if line.1 = p then line.2 else 0).sum

def requestLines (items : List OrderItemCreate) : List (Uuid × Int) :=
  items.map fun item => (item.productID, item.quantity)

def itemLines (items : List OrderItem) : List (Uuid × Int) :=
  items.map fun item => (item.productID, item.quantity)

def Product.addStock (p : Product) (change : Int) : Product :=
  { p with stock := p.stock + change }

@[simp] theorem Product.addStock_stock (p : Product) (change : Int) :
    (p.addStock change).stock = p.stock + change := rfl

@[simp] theorem Product.addStock_zero (p : Product) : p.addStock 0 = p := by
  simp [Product.addStock]

theorem Product.addStock_addStock (p : Product) (a b : Int) :
    (p.addStock a).addStock b = p.addStock (a + b) := by
  simp [Product.addStock, Int.add_assoc]

@[simp] theorem quantityOf_nil (p : Uuid) : quantityOf p [] = 0 := rfl

@[simp] theorem quantityOf_cons (p : Uuid) (line : Uuid × Int) (lines : List (Uuid × Int)) :
    quantityOf p (line :: lines) = (if line.1 = p then line.2 else 0) + quantityOf p lines := by
  simp [quantityOf]

@[simp] theorem quantityOf_append (p : Uuid) (lines lines' : List (Uuid × Int)) :
    quantityOf p (lines ++ lines') = quantityOf p lines + quantityOf p lines' := by
  simp [quantityOf]

theorem quantityOf_neg (p : Uuid) (lines : List (Uuid × Int)) :
    quantityOf p (lines.map fun line => (line.1, -line.2)) = -quantityOf p lines := by
  induction lines with
  | nil => rfl
  | cons line lines ih =>
      simp only [List.map_cons, quantityOf_cons, ih]
      split
      · omega
      · omega

theorem quantityOf_nonneg {p : Uuid} {lines : List (Uuid × Int)}
    (h : ∀ line ∈ lines, 0 ≤ line.2) : 0 ≤ quantityOf p lines := by
  refine List.sum_nonneg fun x hx => ?_
  obtain ⟨line, hline, rfl⟩ := List.mem_map.mp hx
  split
  · exact h line hline
  · exact Int.le_refl 0

theorem quantityOf_eq_zero {p : Uuid} {lines : List (Uuid × Int)}
    (h : p ∉ lines.map Prod.fst) : quantityOf p lines = 0 := by
  refine List.sum_eq_zero fun x hx => ?_
  obtain ⟨line, hline, rfl⟩ := List.mem_map.mp hx
  rw [if_neg]
  rintro rfl
  exact h (List.mem_map.mpr ⟨line, hline, rfl⟩)

/-! ## The requested totals -/

theorem quantityOf_addRequested (p id : Uuid) (quantity : Int) (totals : List (Uuid × Int)) :
    quantityOf p (addRequested id quantity totals) =
      quantityOf p totals + if id = p then quantity else 0 := by
  induction totals with
  | nil => simp [addRequested]
  | cons line totals ih =>
      obtain ⟨id', total⟩ := line
      by_cases hid : id' = id
      · subst hid
        rw [addRequested, if_pos rfl]
        simp only [quantityOf_cons]
        split
        · omega
        · omega
      · rw [addRequested, if_neg hid]
        simp only [quantityOf_cons, ih]
        omega

theorem map_fst_addRequested (id : Uuid) (quantity : Int) (totals : List (Uuid × Int)) :
    (addRequested id quantity totals).map Prod.fst =
      if id ∈ totals.map Prod.fst then totals.map Prod.fst
      else totals.map Prod.fst ++ [id] := by
  induction totals with
  | nil => simp [addRequested]
  | cons line totals ih =>
      obtain ⟨id', total⟩ := line
      by_cases hid : id' = id
      · subst hid
        simp [addRequested]
      · rw [addRequested, if_neg hid]
        simp only [List.map_cons, ih, List.mem_cons, Ne.symm hid, false_or]
        split
        · rfl
        · rfl

private theorem totals_foldl (items : List OrderItemCreate) (totals : List (Uuid × Int)) (p : Uuid)
    (hnodup : (totals.map Prod.fst).Nodup) :
    quantityOf p (items.foldl
        (fun totals item => addRequested item.productID item.quantity totals) totals) =
        quantityOf p totals + quantityOf p (requestLines items) ∧
      ((items.foldl (fun totals item => addRequested item.productID item.quantity totals)
        totals).map Prod.fst).Nodup := by
  induction items generalizing totals with
  | nil => simpa [requestLines] using hnodup
  | cons item items ih =>
      have hnext : ((addRequested item.productID item.quantity totals).map Prod.fst).Nodup := by
        rw [map_fst_addRequested]
        split
        · exact hnodup
        · rename_i hmem
          exact List.nodup_append.mpr ⟨hnodup, List.nodup_singleton _, fun a ha b hb => by
            rw [List.mem_singleton.mp hb]
            rintro rfl
            exact hmem ha⟩
      obtain ⟨hquantity, hkeys⟩ := ih _ hnext
      refine ⟨?_, hkeys⟩
      rw [List.foldl_cons, hquantity, quantityOf_addRequested]
      simp only [requestLines, List.map_cons, quantityOf_cons]
      omega

theorem quantityOf_requestedTotals (items : List OrderItemCreate) (p : Uuid) :
    quantityOf p (requestedTotals items) = quantityOf p (requestLines items) := by
  have h := (totals_foldl items [] p List.nodup_nil).1
  simpa [requestedTotals] using h

theorem nodup_requestedTotals (items : List OrderItemCreate) :
    ((requestedTotals items).map Prod.fst).Nodup :=
  (totals_foldl items [] 0 List.nodup_nil).2

/-- A product has one entry among the totals, so the entry is its total. -/
theorem quantityOf_of_mem {p : Uuid} {quantity : Int} {totals : List (Uuid × Int)}
    (hnodup : (totals.map Prod.fst).Nodup) (h : (p, quantity) ∈ totals) :
    quantityOf p totals = quantity := by
  induction totals with
  | nil => cases h
  | cons line totals ih =>
      rw [List.map_cons, List.nodup_cons] at hnodup
      rw [quantityOf_cons]
      rcases List.mem_cons.mp h with rfl | hrest
      · rw [if_pos rfl, quantityOf_eq_zero hnodup.1, Int.add_zero]
      · have hne : line.1 ≠ p := by
          rintro rfl
          exact hnodup.1 (List.mem_map.mpr ⟨_, hrest, rfl⟩)
        rw [if_neg hne, Int.zero_add, ih hnodup.2 hrest]

/-! ## Stocks in memory -/

theorem lookup_addStock (products : ProductMap) (id : Uuid) (change : Int) (p : Uuid) :
    (addStock products id change).lookup p =
      (products.lookup p).map fun product =>
        product.addStock (if id = p then change else 0) := by
  unfold addStock
  cases hid : products.lookup id with
  | none =>
      by_cases hp : id = p
      · subst hp
        simp [hid]
      · simp [hp]
  | some found =>
      by_cases hp : id = p
      · subst hp
        simp [hid, Product.addStock]
      · simp [hp, AList.lookup_insert_ne (Ne.symm hp)]

/-- Going through lines moves each stock by the total of its product. -/
theorem lookup_addLines (products : ProductMap) (lines : List (Uuid × Int)) (p : Uuid) :
    (lines.foldl (fun products line => addStock products line.1 line.2) products).lookup p =
      (products.lookup p).map fun product => product.addStock (quantityOf p lines) := by
  induction lines generalizing products with
  | nil => simp
  | cons line lines ih =>
      rw [List.foldl_cons, ih, lookup_addStock, Option.map_map]
      congr 1
      funext product
      rw [Function.comp_apply, Product.addStock_addStock, quantityOf_cons]

theorem lookup_giveBack (products : ProductMap) (items : List OrderItem) (p : Uuid) :
    (giveBack products items).lookup p =
      (products.lookup p).map fun product =>
        product.addStock (quantityOf p (itemLines items)) := by
  rw [← lookup_addLines, itemLines, List.foldl_map, giveBack]

theorem lookup_deduct (products : ProductMap) (requested : List (Uuid × Int)) (p : Uuid) :
    (deduct products requested).lookup p =
      (products.lookup p).map fun product =>
        product.addStock (-quantityOf p requested) := by
  rw [← quantityOf_neg, ← lookup_addLines, List.foldl_map, deduct]

theorem checkProducts_found {products : ProductMap} {requested : List (Uuid × Int)}
    (h : checkProducts products requested = .ok ()) {line : Uuid × Int}
    (hline : line ∈ requested) :
    ∃ p, products.lookup line.1 = some p ∧ p.status = .active := by
  induction requested with
  | nil => cases hline
  | cons first requested ih =>
      simp only [checkProducts] at h
      cases hfirst : products.lookup first.1 with
      | none =>
          rw [hfirst] at h
          cases h
      | some p =>
          simp only [hfirst] at h
          by_cases hactive : p.status = .active
          · rw [if_pos hactive] at h
            rcases List.mem_cons.mp hline with rfl | hrest
            · exact ⟨p, hfirst, hactive⟩
            · exact ih h hrest
          · rw [if_neg hactive] at h
            cases h

theorem shortages_empty {products : ProductMap} {requested : List (Uuid × Int)}
    (h : (shortages products requested).isEmpty = true) {line : Uuid × Int}
    (hline : line ∈ requested) {p : Product} (hp : products.lookup line.1 = some p) :
    line.2 ≤ p.stock := by
  have hnone := List.filterMap_eq_nil_iff.mp (List.isEmpty_iff.mp h) line hline
  simp only [hp] at hnone
  split at hnone
  · cases hnone
  · omega

/-- What placing items on the products of the session has checked and done. -/
structure Placed (products : ProductMap) (items : List OrderItemCreate)
    (placement : Placement) : Prop where
  found : ∀ item ∈ items, ∃ p, products.lookup item.productID = some p ∧ p.status = .active
  stocks : ∀ p, placement.products.lookup p =
    (products.lookup p).map fun product => product.addStock (-quantityOf p (requestLines items))
  sufficient : ∀ p product, products.lookup p = some product →
    p ∈ items.map OrderItemCreate.productID → quantityOf p (requestLines items) ≤ product.stock
  lines : placement.lines = priceItems products items

theorem mem_requestedTotals {items : List OrderItemCreate} {item : OrderItemCreate}
    (h : item ∈ items) : item.productID ∈ (requestedTotals items).map Prod.fst := by
  have hpos : ∀ line ∈ requestLines items, 0 ≤ line.2 := by
    intro line hline
    obtain ⟨item', _, rfl⟩ := List.mem_map.mp hline
    have := item'.minimum
    simp only
    omega
  by_contra hnone
  have hzero := quantityOf_eq_zero hnone
  rw [quantityOf_requestedTotals] at hzero
  have hle : item.quantity ≤ quantityOf item.productID (requestLines items) := by
    refine List.single_le_sum (fun x hx => ?_) _ ?_
    · obtain ⟨line, hline, rfl⟩ := List.mem_map.mp hx
      split
      · exact hpos line hline
      · exact Int.le_refl 0
    · refine List.mem_map.mpr ⟨(item.productID, item.quantity), ?_, if_pos rfl⟩
      exact List.mem_map.mpr ⟨item, h, rfl⟩
  have := item.minimum
  omega

theorem placeItems_placed {products : ProductMap} {items : List OrderItemCreate}
    {placement : Placement} (h : placeItems products items = .ok placement) :
    Placed products items placement := by
  simp only [placeItems] at h
  cases hcheck : checkProducts products (requestedTotals items) with
  | error error =>
      rw [hcheck] at h
      cases h
  | ok _ =>
      rw [hcheck] at h
      by_cases hempty : (shortages products (requestedTotals items)).isEmpty = true
      · simp only [hempty, if_true] at h
        cases h
        refine ⟨fun item hitem => ?_, fun p => ?_, fun p product hp hmem => ?_, rfl⟩
        · obtain ⟨line, hline, hid⟩ := List.mem_map.mp (mem_requestedTotals hitem)
          rw [← hid]
          exact checkProducts_found hcheck hline
        · rw [lookup_deduct, quantityOf_requestedTotals]
        · obtain ⟨item, hitem, rfl⟩ := List.mem_map.mp hmem
          obtain ⟨line, hline, hid⟩ := List.mem_map.mp (mem_requestedTotals hitem)
          rw [← quantityOf_requestedTotals, ← hid,
            quantityOf_of_mem (nodup_requestedTotals items) hline]
          exact shortages_empty hempty hline (hid.symm ▸ hp)
      · simp only [hempty] at h
        cases h

/-- Every line is there, in order, when every product is found. -/
theorem priceItems_lines {products : ProductMap} {items : List OrderItemCreate}
    (h : ∀ item ∈ items, ∃ p, products.lookup item.productID = some p) :
    (priceItems products items).map (fun line => (line.productID, line.quantity)) =
      requestLines items := by
  induction items with
  | nil => rfl
  | cons item items ih =>
      obtain ⟨p, hp⟩ := h item List.mem_cons_self
      have hrest := ih fun item' hitem' => h item' (List.mem_cons_of_mem item hitem')
      simp only [priceItems, requestLines] at hrest ⊢
      rw [List.filterMap_cons_some (by rw [hp]; rfl), List.map_cons, List.map_cons, hrest]

/-! ## Flushed stocks -/

/-- What flushing stocks adds to the rows a transaction has written. -/
def writtenStocks (loaded : ProductMap) (written : Rows) (changes : List (Uuid × Int)) : Rows :=
  changes.foldl (fun written change =>
    match loaded.lookup change.1 with
    | some p => written.insert (.product change.1) { p with stock := change.2 }
    | none => written) written

theorem lookup_writtenStocks_other {loaded : ProductMap} {written : Rows}
    {changes : List (Uuid × Int)} {k : Key} (h : ∀ id, k ≠ .product id) :
    (writtenStocks loaded written changes).lookup k = written.lookup k := by
  induction changes generalizing written with
  | nil => rfl
  | cons change changes ih =>
      simp only [writtenStocks, List.foldl_cons] at ih ⊢
      rw [ih]
      cases loaded.lookup change.1 with
      | none => rfl
      | some p => exact AList.lookup_insert_ne (h change.1)

theorem lookup_writtenStocks_notMem {loaded : ProductMap} {written : Rows}
    {changes : List (Uuid × Int)} {id : Uuid} (h : id ∉ changes.map Prod.fst) :
    (writtenStocks loaded written changes).lookup (.product id) =
      written.lookup (.product id) := by
  induction changes generalizing written with
  | nil => rfl
  | cons change changes ih =>
      rw [List.map_cons, List.mem_cons, not_or] at h
      simp only [writtenStocks, List.foldl_cons] at ih ⊢
      rw [ih h.2]
      cases loaded.lookup change.1 with
      | none => rfl
      | some p => exact AList.lookup_insert_ne (by simpa using h.1)

theorem lookup_writtenStocks_mem {loaded : ProductMap} {written : Rows}
    {changes : List (Uuid × Int)} {id : Uuid} {stock : Int} {p : Product}
    (hnodup : (changes.map Prod.fst).Nodup) (h : (id, stock) ∈ changes)
    (hp : loaded.lookup id = some p) :
    (writtenStocks loaded written changes).lookup (.product id) =
      some { p with stock := stock } := by
  induction changes generalizing written with
  | nil => cases h
  | cons change changes ih =>
      rw [List.map_cons, List.nodup_cons] at hnodup
      rcases List.mem_cons.mp h with rfl | hrest
      · have hother : (writtenStocks loaded
            (written.insert (.product id) { p with stock := stock }) changes).lookup
              (.product id) = some { p with stock := stock } := by
          rw [lookup_writtenStocks_notMem hnodup.1, AList.lookup_insert]
        simp only [writtenStocks, List.foldl_cons, hp] at hother ⊢
        exact hother
      · simp only [writtenStocks, List.foldl_cons] at ih ⊢
        exact ih hnodup.2 hrest

theorem mem_changedStocks {loaded products : ProductMap} {id : Uuid} {stock : Int} :
    (id, stock) ∈ changedStocks loaded products ↔
      ∃ p, products.lookup id = some p ∧ p.stock = stock ∧
        (loaded.lookup id).map Product.stock ≠ some stock := by
  simp only [changedStocks, List.mem_filterMap]
  constructor
  · rintro ⟨⟨id', p⟩, hmem, hsome⟩
    simp only [Option.ite_none_left_eq_some, Option.some.injEq, Prod.mk.injEq] at hsome
    obtain ⟨hne, rfl, rfl⟩ := hsome
    exact ⟨p, AList.mem_lookup_iff.mpr hmem, rfl, hne⟩
  · rintro ⟨p, hp, rfl, hne⟩
    refine ⟨⟨id, p⟩, AList.mem_lookup_iff.mp hp, ?_⟩
    simp only
    rw [if_neg hne]

theorem nodup_changedStocks (loaded products : ProductMap) :
    ((changedStocks loaded products).map Prod.fst).Nodup := by
  have hsublist : ((changedStocks loaded products).map Prod.fst).Sublist
      (products.entries.map Sigma.fst) := by
    unfold changedStocks
    induction products.entries with
    | nil => exact List.Sublist.slnil
    | cons entry entries ih =>
        rw [List.filterMap_cons]
        split
        · exact ih.cons _
        · rename_i hsome
          simp only [Option.ite_none_left_eq_some, Option.some.injEq] at hsome
          rw [List.map_cons, List.map_cons, ← hsome.2]
          exact ih.cons_cons _
  exact hsublist.nodup products.nodupKeys

/-- The flushed rows over the loaded ones are the map in memory, when only
    stocks have changed in it. -/
theorem lookup_written {loaded products : ProductMap} {change : Uuid → Int}
    (hproducts : ∀ id, products.lookup id =
      (loaded.lookup id).map fun p => p.addStock (change id))
    (written : Rows) {id : Uuid} (hwritten : written.lookup (.product id) = none) :
    ((writtenStocks loaded written (changedStocks loaded products)).lookup
        (.product id)).or (loaded.lookup id) = products.lookup id := by
  rw [hproducts id]
  cases hp : loaded.lookup id with
  | none =>
      rw [lookup_writtenStocks_notMem, hwritten]
      · rfl
      · intro hmem
        obtain ⟨⟨_, stock⟩, hchange, rfl⟩ := List.mem_map.mp hmem
        obtain ⟨p, hlookup, _⟩ := mem_changedStocks.mp hchange
        rw [hproducts, hp] at hlookup
        cases hlookup
  | some p =>
      by_cases hzero : p.stock = p.stock + change id
      · have hchange : change id = 0 := by omega
        rw [lookup_writtenStocks_notMem, hwritten, Option.none_or, hchange]
        · simp
        · intro hmem
          obtain ⟨⟨_, stock⟩, hmem', rfl⟩ := List.mem_map.mp hmem
          obtain ⟨p', hlookup, rfl, hne⟩ := mem_changedStocks.mp hmem'
          rw [hproducts, hp, Option.map_some, Option.some.injEq] at hlookup
          subst hlookup
          rw [hp] at hne
          simp [hchange] at hne
      · have hmem : (id, p.stock + change id) ∈ changedStocks loaded products := by
          refine mem_changedStocks.mpr ⟨p.addStock (change id), ?_, rfl, ?_⟩
          · rw [hproducts, hp, Option.map_some]
          · rw [hp, Option.map_some]
            exact fun heq => hzero (Option.some.inj heq)
        rw [lookup_writtenStocks_mem (nodup_changedStocks loaded products) hmem hp]
        rfl

end SoaHomework.Marketplace

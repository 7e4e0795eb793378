import SoaHomework.HeldColumns

/-!
# The statements of a flush

A session writes all of its pending objects in one flush. The order handlers of the
marketplace send the same flush statement by statement, table by table. A request that
has the database to itself leaves with these statements what the objects are in memory,
or is refused because one of them does not fit its columns (`Finishes`).
-/

namespace SoaHomework.OrderSessions

open StatementProgram OrmSession Marketplace

/-- The tables in the order in which a flush writes them. -/
def tableOf : Key → Nat
  | .product _ => 0
  | .promo _ => 1
  | .order _ => 2
  | .items _ => 3
  | .operation _ => 4
  | .user _ => 5

theorem tableOf_le (k : Key) : tableOf k ≤ 5 := by
  cases k with
  | _ => simp [tableOf]

/-- The objects of table `n` fit its columns. -/
def Fit (objects : Rows) (n : Nat) : Prop :=
  ∀ k row, tableOf k = n → objects.lookup k = some row → schema.fits k row = true

/-- Nothing of table `n` has been assigned. -/
def Unassigned (rows objects : Rows) (n : Nat) : Prop :=
  ∀ k, tableOf k = n → objects.lookup k = rows.lookup k

/-- The first `n` tables have been written. -/
structure Written (rows objects : Rows) (n : Nat) (t : Draft) : Prop where
  committed : t.rows = rows
  done : ∀ k, tableOf k < n → t.seen.lookup k = (objects.lookup k).map (schema.stored k)
  left : ∀ k, n ≤ tableOf k → t.seen.lookup k = rows.lookup k

/-- The request is refused by the database before it has committed anything. -/
def OutOfRange {α : Type} (draw : Draw) (rows : Rows) (p : Handler α) (t : Draft) : Prop :=
  ∃ t', p.alone (onDraft draw) t = some (.error (.db .outOfRange), t') ∧ t'.rows = rows

/-- The part of a flush that writes table `n`. -/
structure Writes {α : Type} (draw : Draw) (rows objects : Rows) (n : Nat) (p : Handler α)
    (value : α) : Prop where
  written : Fit objects n → ∀ t, Written rows objects n t →
    ∃ t', p.alone (onDraft draw) t = some (.ok value, t') ∧ Written rows objects (n + 1) t'
  refused : ¬ Fit objects n → ∀ t, Written rows objects n t → OutOfRange draw rows p t

/-- What a request leaves when everything that its session has assigned is committed. -/
structure Flushed (rows objects : Rows) (id : Uuid) (response : Response) (t : Draft) : Prop where
  rows : ∀ k, t.rows.lookup k = (objects.lookup k).map (schema.stored k)
  response : ∃ order, t.rows.lookup (.order id) = some order ∧
    response = .order ⟨id, order, itemsOf t.rows id⟩

/-- The rest of a handler, which writes the tables from `n` on. -/
structure Finishes (draw : Draw) (rows objects : Rows) (id : Uuid) (n : Nat)
    (p : Handler Response) : Prop where
  flushed : (∀ m, n ≤ m → Fit objects m) → ∀ t, Written rows objects n t →
    ∃ response t', p.alone (onDraft draw) t = some (.ok response, t') ∧
      Flushed rows objects id response t'
  refused : ¬ (∀ m, n ≤ m → Fit objects m) → ∀ t, Written rows objects n t →
    OutOfRange draw rows p t

variable {α : Type} {draw : Draw} {rows objects : Rows} {id : Uuid} {n : Nat}

theorem Held.fit (h : Held rows) (hsame : Unassigned rows objects n) : Fit objects n := by
  intro k row hk hrow
  exact (h k row ((hsame k hk).symm.trans hrow)).2

theorem fit_from_succ (hfit : Fit objects n) :
    (∀ m, n ≤ m → Fit objects m) ↔ ∀ m, n + 1 ≤ m → Fit objects m := by
  constructor
  · exact fun h m hm => h m (by omega)
  · intro h m hm
    rcases hm.lt_or_eq with hlt | rfl
    · exact h m hlt
    · exact hfit

theorem OutOfRange.bind {β : Type} {p : Handler α} {f : α → Handler β} {t : Draft}
    (h : OutOfRange draw rows p t) : OutOfRange draw rows (p >>= f) t := by
  obtain ⟨t', hrun, hrows⟩ := h
  exact ⟨t', by rw [Program.alone_bind, hrun], hrows⟩

/-- One table after the other. -/
theorem Finishes.bind {p : Handler α} {value : α} {f : α → Handler Response}
    (hp : Writes draw rows objects n p value)
    (hf : Finishes draw rows objects id (n + 1) (f value)) :
    Finishes draw rows objects id n (p >>= f) := by
  by_cases hfit : Fit objects n
  · have hrun : ∀ t, Written rows objects n t → ∃ t', Written rows objects (n + 1) t' ∧
        (p >>= f).alone (onDraft draw) t = (f value).alone (onDraft draw) t' := by
      intro t ht
      obtain ⟨t', hrun, ht'⟩ := hp.written hfit t ht
      exact ⟨t', ht', by rw [Program.alone_bind, hrun]⟩
    constructor
    · intro hfits t ht
      obtain ⟨t', ht', hrun⟩ := hrun t ht
      rw [hrun]
      exact hf.flushed ((fit_from_succ hfit).mp hfits) t' ht'
    · intro hfits t ht
      obtain ⟨t', ht', hrun⟩ := hrun t ht
      rw [OutOfRange, hrun]
      exact hf.refused (mt (fit_from_succ hfit).mpr hfits) t' ht'
  · constructor
    · exact fun hfits => absurd (hfits n le_rfl) hfit
    · exact fun _ t ht => (hp.refused hfit t ht).bind

theorem Finishes.unassigned {p : Handler Response} (hheld : Held rows)
    (hsame : Unassigned rows objects n)
    (h : Finishes draw rows objects id (n + 1) p) : Finishes draw rows objects id n p := by
  have hnext : ∀ t, Written rows objects n t → Written rows objects (n + 1) t := by
    intro t ht
    refine ⟨ht.committed, fun k hk => ?_, fun k hk => ht.left k (by omega)⟩
    rcases Nat.lt_succ_iff_lt_or_eq.mp hk with hlt | heq
    · exact ht.done k hlt
    · rw [ht.left k heq.ge, hsame k heq, hheld.stored]
  constructor
  · exact fun hfits t ht =>
      h.flushed ((fit_from_succ (hheld.fit hsame)).mp hfits) t (hnext t ht)
  · exact fun hfits t ht =>
      h.refused (mt (fit_from_succ (hheld.fit hsame)).mpr hfits) t (hnext t ht)

/-! ## One row -/

/-- The row is put among those that the request sees. -/
structure Puts (t : Draft) (k : Key) (row : Row k) (t' : Draft) : Prop where
  rows : t'.rows = t.rows
  row : t'.seen.lookup k = some row
  others : ∀ k', k' ≠ k → t'.seen.lookup k' = t.seen.lookup k'

theorem puts_put (t : Draft) (k : Key) (row : Row k) : Puts t k row (t.put k row) :=
  ⟨rfl, t.lookup_put_self k row, fun _ hk => t.lookup_put_of_ne hk⟩

theorem Puts.put {t t' : Draft} {k : Key} {row : Row k} (h : Puts t k row t') (row' : Row k) :
    Puts t k row' (t'.put k row') := by
  refine ⟨h.rows, t'.lookup_put_self k row', fun k' hk => ?_⟩
  rw [t'.lookup_put_of_ne hk, h.others k' hk]

theorem puts_same {t : Draft} {k : Key} {row : Row k} (h : t.seen.lookup k = some row) :
    Puts t k row t := ⟨rfl, h, fun _ _ => rfl⟩

/-- The only object of its table that has been assigned. -/
structure Assigned (rows objects : Rows) (k : Key) (row : Row k) : Prop where
  row : objects.lookup k = some row
  others : ∀ k', tableOf k' = tableOf k → k' ≠ k → objects.lookup k' = rows.lookup k'

theorem Unassigned.assign {k : Key} (h : Unassigned rows objects (tableOf k)) (row : Row k) :
    Assigned rows (objects.insert k row) k row := by
  refine ⟨AList.lookup_insert _, fun k' hk' hne => ?_⟩
  rw [AList.lookup_insert_ne hne, h k' hk']

/-- The last of several assignments counts. -/
theorem Assigned.again {k : Key} {row : Row k} (h : Assigned rows objects k row) (row' : Row k) :
    Assigned rows (objects.insert k row') k row' := by
  refine ⟨AList.lookup_insert _, fun k' hk' hne => ?_⟩
  rw [AList.lookup_insert_ne hne, h.others k' hk' hne]

theorem Assigned.trans {objects' : Rows} {k : Key} {row : Row k}
    (h : Assigned rows objects k row) (hsame : Unassigned objects objects' (tableOf k)) :
    Assigned rows objects' k row :=
  ⟨(hsame k rfl).trans h.row, fun k' hk' hne => (hsame k' hk').trans (h.others k' hk' hne)⟩

theorem Unassigned.trans {objects' : Rows} (h : Unassigned rows objects n)
    (hsame : Unassigned objects objects' n) : Unassigned rows objects' n :=
  fun k hk => (hsame k hk).trans (h k hk)

theorem unassigned_insert (objects : Rows) (k : Key) (row : Row k) (hne : tableOf k ≠ n) :
    Unassigned objects (objects.insert k row) n := by
  intro k' hk'
  apply AList.lookup_insert_ne
  rintro rfl
  exact hne hk'

theorem Assigned.fit_iff {k : Key} {row : Row k} (h : Assigned rows objects k row)
    (hheld : Held rows) : Fit objects (tableOf k) ↔ schema.fits k row = true := by
  constructor
  · exact fun hfit => hfit k row rfl h.row
  · intro hfits k' row' hk' hrow'
    by_cases hk : k' = k
    · subst hk
      rw [h.row, Option.some.injEq] at hrow'
      rwa [← hrow']
    · rw [h.others k' hk' hk] at hrow'
      exact (hheld k' row' hrow').2

theorem Written.puts {k : Key} {row : Row k} {t t' : Draft} (h : Written rows objects (tableOf k) t)
    (hheld : Held rows) (hassigned : Assigned rows objects k row)
    (hputs : Puts t k (schema.stored k row) t') : Written rows objects (tableOf k + 1) t' := by
  refine ⟨hputs.rows.trans h.committed, fun k' hk' => ?_, fun k' hk' => ?_⟩
  · by_cases hk : k' = k
    · subst hk
      rw [hputs.row, hassigned.row]
      rfl
    · rw [hputs.others k' hk]
      rcases Nat.lt_succ_iff_lt_or_eq.mp hk' with hlt | heq
      · exact h.done k' hlt
      · rw [h.left k' heq.ge, hassigned.others k' heq hk, hheld.stored]
  · have hk : k' ≠ k := by
      rintro rfl
      omega
    rw [hputs.others k' hk, h.left k' (by omega)]

/-- A part of a flush that writes one row. -/
theorem writes_row {p : Handler α} {value : α} {k : Key} {row : Row k} (hheld : Held rows)
    (hassigned : Assigned rows objects k row)
    (hfits : schema.fits k row = true → ∀ t, Written rows objects (tableOf k) t →
      ∃ t', p.alone (onDraft draw) t = some (.ok value, t') ∧ Puts t k (schema.stored k row) t')
    (hrefused : schema.fits k row = false → ∀ t, Written rows objects (tableOf k) t →
      p.alone (onDraft draw) t = some (.error (.db .outOfRange), t)) :
    Writes draw rows objects (tableOf k) p value := by
  constructor
  · intro hfit t ht
    obtain ⟨t', hrun, hputs⟩ := hfits ((hassigned.fit_iff hheld).mp hfit) t ht
    exact ⟨t', hrun, ht.puts hheld hassigned hputs⟩
  · intro hfit t ht
    have hno : schema.fits k row = false := by
      rw [hassigned.fit_iff hheld, Bool.not_eq_true] at hfit
      exact hfit
    exact ⟨t, hrefused hno t ht, ht.committed⟩

/-- A row whose columns hold every value. -/
theorem writes_fitting {p : Handler α} {value : α} {k : Key} {row : Row k} (hheld : Held rows)
    (hassigned : Assigned rows objects k row) (hfits : schema.fits k row = true)
    (hwrites : ∀ t, Written rows objects (tableOf k) t →
      ∃ t', p.alone (onDraft draw) t = some (.ok value, t') ∧ Puts t k (schema.stored k row) t') :
    Writes draw rows objects (tableOf k) p value :=
  writes_row hheld hassigned (fun _ => hwrites) fun hno => absurd (hfits.symm.trans hno) (by decide)

/-! ## The tables -/

/-- The stocks in memory have moved by `moved`. -/
def StocksMoved (rows objects : Rows) (moved : Uuid → Int) : Prop :=
  ∀ p, objects.lookup (.product p) =
    (rows.lookup (.product p)).map fun product : Product => product.addStock (moved p)

theorem StocksMoved.trans {objects' : Rows} {moved : Uuid → Int}
    (h : StocksMoved rows objects moved) (hsame : Unassigned objects objects' 0) :
    StocksMoved rows objects' moved :=
  fun p => (hsame (.product p) rfl).trans (h p)

/-- The products of a handler have moved by `moved`, and all that have moved are loaded. -/
structure Loaded (rows : Rows) (ids : List Uuid) (moved : Uuid → Int) (products : ProductMap) :
    Prop where
  products : ∀ p, products.lookup p =
    ((productMap rows ids).lookup p).map fun product => product.addStock (moved p)
  ids : ∀ p, moved p ≠ 0 → p ∈ ids

theorem storable_iff_fit {ids : List Uuid} {products : ProductMap} {moved : Uuid → Int}
    (hheld : Held rows) (hmoved : StocksMoved rows objects moved)
    (hloaded : Loaded rows ids moved products) {t : Draft} (ht : Written rows objects 0 t) :
    Storable t.seen (changedStocks (productMap rows ids) products) ↔ Fit objects 0 := by
  have hseen : ∀ p, t.seen.lookup (.product p) = rows.lookup (.product p) :=
    fun p => ht.left (.product p) le_rfl
  constructor
  · intro h k row hk hrow
    cases k with
    | product p =>
        rw [hmoved p] at hrow
        obtain ⟨product, hproduct, rfl⟩ := Option.map_eq_some_iff.mp hrow
        by_cases hzero : moved p = 0
        · rw [hzero, Product.addStock_zero]
          exact (hheld.product hproduct).2
        · obtain ⟨product', hproduct', hfits⟩ := h (p, product.stock + moved p)
            ((mem_changedStocks_iff hloaded.products hloaded.ids).mpr
              ⟨hzero, product, hproduct, rfl⟩)
          rw [hseen, hproduct, Option.some.injEq] at hproduct'
          rwa [← hproduct'] at hfits
    | _ => cases hk
  · rintro h ⟨p, stock⟩ hmem
    obtain ⟨_, product, hproduct, hstock⟩ :=
      (mem_changedStocks_iff hloaded.products hloaded.ids).mp hmem
    simp only at hproduct hstock
    have hobject : objects.lookup (.product p) = some (product.addStock (moved p)) := by
      rw [hmoved p, hproduct]
      rfl
    refine ⟨product, (hseen p).trans hproduct, ?_⟩
    have hfits := h (.product p) _ rfl hobject
    rwa [hstock]

/-- The flush of the stocks. -/
theorem writes_stocks {ids : List Uuid} {products : ProductMap} {moved : Uuid → Int}
    (hheld : Held rows) (hmoved : StocksMoved rows objects moved)
    (hloaded : Loaded rows ids moved products) :
    Writes draw rows objects 0 (flushStocks (changedStocks (productMap rows ids) products)) () := by
  have hnodup := nodup_changedStocks (productMap rows ids) products
  have hchange : ∀ change, change ∈ changedStocks (productMap rows ids) products ↔ _ :=
    fun _ => mem_changedStocks_iff hloaded.products hloaded.ids
  constructor
  · intro hfit t ht
    refine ⟨_, alone_flushStocks hnodup ((storable_iff_fit hheld hmoved hloaded ht).mpr hfit), ?_⟩
    refine ⟨(t.putStocks_rows _).trans ht.committed, fun k hk => ?_, fun k hk => ?_⟩
    · cases k with
      | product p =>
          by_cases hmem : ∃ stock, (p, stock) ∈ changedStocks (productMap rows ids) products
          · obtain ⟨stock, hmem⟩ := hmem
            obtain ⟨_, product, hproduct, hstock⟩ := (hchange _).mp hmem
            simp only at hproduct hstock
            have hseen := (ht.left (.product p) le_rfl).trans hproduct
            rw [t.lookup_putStocks hnodup hmem hseen, hmoved p, hproduct]
            have hprice := congrArg Product.price (hheld.product hproduct).1
            simp only [Option.map_some, schema, Product.stored, Product.addStock,
              Product.withStock, hstock] at hprice ⊢
            rw [hprice]
          · have hother : ∀ change ∈ changedStocks (productMap rows ids) products,
                Key.product p ≠ .product change.1 := by
              rintro ⟨p', stock⟩ hmem' heq
              cases heq
              exact hmem ⟨stock, hmem'⟩
            rw [t.lookup_putStocks_other hother, ht.left (.product p) le_rfl, hmoved p]
            cases hproduct : rows.lookup (.product p) with
            | none => rfl
            | some product =>
                have hzero : moved p = 0 := by
                  by_contra hne
                  exact hmem ⟨_, (hchange (p, product.stock + moved p)).mpr
                    ⟨hne, product, hproduct, rfl⟩⟩
                rw [hzero]
                simp only [Option.map_some, Product.addStock_zero]
                exact congrArg some (hheld.product hproduct).1.symm
      | _ => simp [tableOf] at hk
    · have hother : ∀ change ∈ changedStocks (productMap rows ids) products,
          k ≠ .product change.1 := by
        rintro change _ rfl
        simp [tableOf] at hk
      rw [t.lookup_putStocks_other hother, ht.left k (Nat.zero_le _)]
  · intro hfit t ht
    obtain ⟨error, t', hrun, hrows, herror⟩ := alone_flushStocks_error draw hnodup
      (mt (storable_iff_fit hheld hmoved hloaded ht).mp hfit)
    have hfound : ∀ change ∈ changedStocks (productMap rows ids) products,
        .product change.1 ∈ t.seen := by
      intro change hmem
      obtain ⟨_, product, hproduct, _⟩ := (hchange change).mp hmem
      exact mem_of_lookup ((ht.left (.product change.1) le_rfl).trans hproduct)
    rw [herror hfound] at hrun
    exact ⟨t', hrun, hrows.trans ht.committed⟩

theorem alone_refused {statement : Statement} {error : DbError} {t t' : Draft}
    (h : onDraft draw statement t = some (.error error, t')) :
    (query statement).alone (onDraft draw) t = some (.error (.db error), t') :=
  Program.alone_step _ h

/-- The uses of a promo code. -/
theorem writes_uses {q : Uuid} {promo : PromoCode} {uses : Int} (hheld : Held rows)
    (hrow : rows.lookup (.promo q) = some promo)
    (hassigned : Assigned rows objects (.promo q) (promo.withUses uses)) :
    Writes draw rows objects 1 (flushUses q promo uses) () := by
  obtain ⟨hstored, hpromo⟩ : promo.stored = promo ∧ promo.fits = true := hheld _ _ hrow
  have hsame : schema.stored (.promo q) (promo.withUses uses) = promo.withUses uses :=
    stored_withUses hstored uses
  refine writes_row hheld hassigned (fun hfits t ht => ?_) fun hfits t ht => ?_
  · have hseen := (ht.left (.promo q) le_rfl).trans hrow
    rw [hsame, flushUses]
    split
    · rename_i huses
      refine ⟨t, rfl, puts_same ?_⟩
      rw [huses]
      exact hseen
    · refine ⟨_, returns_query.mpr (congrArg some (Draft.update_ok hseen hfits)), ?_⟩
      exact puts_put t (.promo q) (promo.withUses uses)
  · have hseen := (ht.left (.promo q) le_rfl).trans hrow
    have hne : uses ≠ promo.currentUses := by
      rintro rfl
      exact absurd (hpromo.symm.trans hfits) (by decide)
    rw [flushUses, if_neg hne]
    exact alone_refused (congrArg some (Draft.update_outOfRange hseen hfits))

/-- The new order. -/
theorem writes_newOrder {order : Order} (hheld : Held rows) (hnew : .order draw.id ∉ rows)
    (hassigned : Assigned rows objects (.order draw.id) order) :
    Writes draw rows objects 2 (query (.insertOrder order)) draw.id := by
  refine writes_row hheld hassigned (fun hfits t ht => ?_) fun hfits t ht => ?_
  · have hmem : .order draw.id ∉ t.seen := by
      rw [mem_congr (ht.left (.order draw.id) le_rfl)]
      exact hnew
    refine ⟨_, returns_query.mpr ?_, puts_put t (.order draw.id) order.stored⟩
    have hfits' : order.fits = true := hfits
    simp only [onDraft, Draft.effect, hfits', if_true, Draft.insert, hmem, if_false,
      Option.map_some]
  · have hfits' : order.fits = false := hfits
    apply alone_refused
    simp only [onDraft, Draft.effect, hfits']
    rfl

/-- The columns of the order that have changed. -/
theorem writes_order {loaded assigned : Order} (hheld : Held rows)
    (hrow : rows.lookup (.order id) = some loaded) (huser : assigned.userID = loaded.userID)
    (hassigned : Assigned rows objects (.order id) assigned) :
    Writes draw rows objects 2 (flushOrder id loaded assigned) () := by
  obtain ⟨hstored, hloaded⟩ : loaded.stored = loaded ∧ loaded.fits = true := hheld _ _ hrow
  have happly := apply_orderChange loaded assigned huser
  refine writes_row hheld hassigned (fun hfits t ht => ?_) fun hfits t ht => ?_
  · have hseen := (ht.left (.order id) le_rfl).trans hrow
    have hfits' : assigned.fits = true := hfits
    refine ⟨t.putOrder id loaded assigned, ?_, ?_⟩
    · refine (returns_flushOrder hseen huser).mpr ⟨Or.inr ?_, rfl⟩
      rw [fits_stored, hfits']
    · rw [Draft.putOrder]
      split
      · rename_i hsame
        rw [hsame]
        exact puts_same (hseen.trans (congrArg some hstored.symm))
      · exact puts_put t (.order id) assigned.stored
  · have hseen := (ht.left (.order id) le_rfl).trans hrow
    have hfits' : assigned.fits = false := hfits
    have hne : assigned ≠ loaded := by
      rintro rfl
      exact absurd (hloaded.symm.trans hfits') (by decide)
    have hcheck : ((orderChange loaded assigned).apply loaded).stored.fits = false := by
      rw [happly, fits_stored, hfits']
    have hupdate : t.update (.order id)
        (fun o : Order => ((orderChange loaded assigned).apply o).stored) Order.fits =
          (.error .outOfRange, t) := Draft.update_outOfRange hseen hcheck
    rw [flushOrder, if_neg hne]
    exact alone_refused (congrArg some hupdate)

/-! ## Order lines and operations -/

/-- What a session takes from the clock and from `uuid4()` when the request draws `draw`. -/
def Draws.of (draw : Draw) : Draws where
  rateCheckedAt := draw.clock
  promoCheckedAt := draw.clock
  began := draw.clock
  orderID := draw.id
  operationID := draw.operationID
  itemID n := draw.itemIDs.getD n 0

theorem items_of {lines : List ItemLine} (h : draw.itemIDs.length = lines.length) :
    (Draws.of draw).items lines = newItems draw.itemIDs lines := by
  apply List.ext_getElem
  · simp [Draws.items, newItems, h]
  · intro n hn hn'
    have hlines : n < lines.length := by simpa [Draws.items] using hn
    have hids : n < draw.itemIDs.length := by omega
    simp [Draws.items, newItems, Draws.of, hids]

theorem freshIDs_written {lines : List ItemLine} {t : Draft} (ht : Written rows objects 3 t) :
    freshIDs t.seen draw.itemIDs lines = freshIDs rows draw.itemIDs lines :=
  freshIDs_congr (fun o => ht.left (.items o) le_rfl) _ _

/-- The lines of a new order. -/
theorem writes_items {lines : List ItemLine} (hheld : Held rows) (hnew : .items id ∉ rows)
    (hfresh : freshIDs rows draw.itemIDs lines = true)
    (hassigned : Assigned rows objects (.items id) (newItems draw.itemIDs lines)) :
    Writes draw rows objects 3 (query (.insertItems id lines)) () := by
  refine writes_fitting hheld hassigned rfl fun t ht => ?_
  have hseen : t.seen.lookup (.items id) = none :=
    (ht.left (.items id) le_rfl).trans (AList.lookup_eq_none.mpr hnew)
  have hitems : itemsOf t.seen id = [] := by
    rw [itemsOf, hseen]
    rfl
  refine ⟨_, returns_query.mpr ?_, puts_put t (.items id) (newItems draw.itemIDs lines)⟩
  simp only [onDraft, Draft.effect, freshIDs_written ht, hfresh, if_true, hitems, List.nil_append]

/-- The lines of an update replace those of the order. -/
theorem writes_replacedItems {lines : List ItemLine} (hheld : Held rows)
    (hfresh : freshIDs rows draw.itemIDs lines = true)
    (hassigned : Assigned rows objects (.items id) (newItems draw.itemIDs lines)) :
    Writes draw rows objects 3 (query (.insertItems id lines) >>= fun _ =>
      query (.deleteItems id ((itemsOf rows id).map OrderItem.id))) () := by
  refine writes_fitting hheld hassigned rfl fun t ht => ?_
  have hitems : itemsOf t.seen id = itemsOf rows id := itemsOf_congr (ht.left (.items id) le_rfl)
  have hinsert : onDraft draw (.insertItems id lines) t = some (.ok (),
      t.put (.items id) (itemsOf rows id ++ newItems draw.itemIDs lines)) := by
    simp only [onDraft, Draft.effect, freshIDs_written ht, hfresh, if_true, hitems]
  have hinserted := inserted_newItems (t := t) id ((freshIDs_written ht).trans hfresh)
  rw [hitems] at hinserted
  have hputs := puts_put t (.items id) (itemsOf rows id ++ newItems draw.itemIDs lines)
  refine ⟨_, ?_, hputs.put (newItems draw.itemIDs lines)⟩
  rw [alone_query hinsert]
  exact returns_query.mpr hinserted.delete

/-- The record of the operation. -/
theorem writes_operation {subject : Uuid} {operationType : OperationType} (hheld : Held rows)
    (hnew : .operation draw.operationID ∉ rows)
    (hassigned : Assigned rows objects (.operation draw.operationID)
      ⟨subject, operationType, draw.clock⟩) :
    Writes draw rows objects 4 (query (.insertOperation subject operationType)) () := by
  refine writes_fitting hheld hassigned rfl fun t ht => ?_
  have hmem : .operation draw.operationID ∉ t.seen := by
    rw [mem_congr (ht.left (.operation draw.operationID) le_rfl)]
    exact hnew
  refine ⟨_, returns_query.mpr ?_, puts_put t (.operation draw.operationID)
    ⟨subject, operationType, draw.clock⟩⟩
  simp only [onDraft, Draft.effect, Draft.insert, hmem, if_false, Option.map_some]

/-! ## The commit -/

/-- The commit, and the answer. -/
theorem finishes_commit (hheld : Held rows)
    (husers : Unassigned rows objects 5)
    (horder : .order id ∈ objects) :
    Finishes draw rows objects id 5 (query .commit >>= fun _ => Marketplace.orderResponse id) := by
  have hlast : ∀ m, 5 ≤ m → Fit objects m := by
    intro m hm
    rcases hm.lt_or_eq with hlt | rfl
    · intro k row hk
      have := tableOf_le k
      omega
    · exact hheld.fit husers
  constructor
  · intro _ t ht
    have hrows : ∀ k, t.seen.lookup k = (objects.lookup k).map (schema.stored k) := by
      intro k
      by_cases hk : tableOf k < 5
      · exact ht.done k hk
      · have hfive : tableOf k = 5 := by
          have := tableOf_le k
          omega
        rw [ht.left k hfive.ge, husers k hfive, hheld.stored]
    obtain ⟨assigned, hassigned⟩ := Option.isSome_iff_exists.mp (AList.lookup_isSome.mpr horder)
    have hstored : t.seen.lookup (.order id) = some (Order.stored assigned) := by
      rw [hrows, hassigned]
      rfl
    have hagain : (⟨t.seen, ∅⟩ : Draft).seen.lookup (.order id) =
        some (Order.stored assigned) := by
      rw [Draft.seen_of_written]
      exact hstored
    have hresponse : Returns draw (query .commit >>= fun _ => Marketplace.orderResponse id) t
        (.order ⟨id, Order.stored assigned, itemsOf (⟨t.seen, ∅⟩ : Draft).seen id⟩)
        ⟨t.seen, ∅⟩ := returns_commit.mpr ((returns_orderResponse hagain).mpr ⟨rfl, rfl⟩)
    rw [Draft.seen_of_written] at hresponse
    exact ⟨_, _, hresponse, hrows, ⟨_, hstored, rfl⟩⟩
  · exact fun hfits => absurd hlast hfits

end SoaHomework.OrderSessions

import SoaHomework.MarketApi
import SoaHomework.Paging
import SoaHomework.ProductUpdates

/-!
# Pages of the catalogue

`list_products` cuts a page from the products that match its filters with
`OFFSET` and `LIMIT` and without an `ORDER BY`. The rows of each query come in
an order of their own, which the model takes for the order of the table.
-/

namespace SoaHomework.Marketplace

open StatementProgram Paging

/-- The filters that the query applies: an empty category is none. -/
def queryFilter (status : Option ProductStatus) (category : Option String) : ProductFilter where
  status := status
  category := category.filter fun text => decide (text ≠ "")

/-- No statement fails but one whose `OFFSET` or `LIMIT` is no `bigint`. -/
def sendPage : ApiStatement → Choice
  | .selectProducts _ offset limit =>
      if offset < 2 ^ 63 ∧ limit < 2 ^ 63 then .proceed [] else .failure
  | _ => .proceed []

/-- The answer to the request of a page, on the tables as its queries see them. -/
def productPage (subject : Uuid) (status : Option ProductStatus) (category : Option String)
    (size : Nat) (tables : Tables) (page : Nat) : Option (Except HandlerError ApiResponse) :=
  ((listProducts subject (queryFilter status category) page size).alone
    (fun statement => executeApi statement (sendPage statement)) ⟨tables, tables⟩).map Prod.fst

/-- The same rows, in another order. -/
structure SameTables (tables tables' : Tables) : Prop where
  rows : tables'.rows.entries.Perm tables.rows.entries
  credentials : tables'.credentials = tables.credentials

section Filter

variable {tables tables' : Tables} {filter : ProductFilter}

theorem SameTables.filtered (h : SameTables tables tables') :
    (filteredProducts tables'.rows filter).Perm (filteredProducts tables.rows filter) :=
  h.rows.filterMap _

theorem SameTables.lookup (h : SameTables tables tables') (k : Key) :
    tables'.rows.lookup k = tables.rows.lookup k :=
  AList.perm_lookup h.rows

theorem nodup_filteredProducts (rows : Rows) : (filteredProducts rows filter).Nodup := by
  apply rows.nodupKeys.nodup.filterMap
  rintro ⟨k, row⟩ ⟨k', row'⟩ found hfound hfound'
  cases k with
  | product id =>
      cases k' with
      | product id' =>
          simp only [Option.mem_def, Option.ite_none_right_eq_some, Option.some.injEq]
            at hfound hfound'
          obtain ⟨_, rfl⟩ := hfound
          obtain ⟨_, heq⟩ := hfound'
          cases heq
          rfl
      | _ => cases hfound'
  | _ => cases hfound

/-- The product that an entry of the table contributes. -/
def matched (filter : ProductFilter) : (entry : Sigma Row) → Option (Uuid × Product)
  | ⟨.product id, product⟩ => if filter.matches product then some (id, product) else none
  | _ => none

def entryOf (product : Uuid × Product) : Sigma Row := ⟨.product product.1, product.2⟩

theorem filteredProducts_eq (rows : Rows) :
    filteredProducts rows filter = rows.entries.filterMap (matched filter) := by
  rw [filteredProducts]
  congr 1

theorem matched_eq_some {entry : Sigma Row} {product : Uuid × Product} :
    matched filter entry = some product ↔
      entry = entryOf product ∧ filter.matches product.2 = true := by
  obtain ⟨k, row⟩ := entry
  obtain ⟨id, product⟩ := product
  cases k with
  | product id' =>
      simp only [matched, entryOf, Option.ite_none_right_eq_some, Option.some.injEq,
        Prod.mk.injEq, Sigma.mk.injEq, Key.product.injEq]
      constructor
      · rintro ⟨hmatches, rfl, rfl⟩
        exact ⟨⟨rfl, HEq.rfl⟩, hmatches⟩
      · rintro ⟨⟨rfl, heq⟩, hmatches⟩
        obtain rfl := eq_of_heq heq
        exact ⟨hmatches, rfl, rfl⟩
  | _ => simp [matched, entryOf]

/-- The matching entries are those of the matching products. -/
theorem map_entryOf (entries : List (Sigma Row)) :
    (entries.filterMap (matched filter)).map entryOf =
      entries.filter fun entry => (matched filter entry).isSome := by
  induction entries with
  | nil => rfl
  | cons entry entries ih =>
      cases hentry : matched filter entry with
      | none =>
          rw [List.filterMap_cons_none hentry, ih, List.filter_cons_of_neg (by simp [hentry])]
      | some product =>
          rw [List.filterMap_cons_some hentry, List.map_cons, ih,
            List.filter_cons_of_pos (by simp [hentry]), (matched_eq_some.mp hentry).1]

/-- Every order of the matching products is that of some order of the table. -/
theorem exists_sameTables (tables : Tables) {order : List (Uuid × Product)}
    (h : order.Perm (filteredProducts tables.rows filter)) :
    ∃ tables', SameTables tables tables' ∧ filteredProducts tables'.rows filter = order := by
  rw [filteredProducts_eq] at h
  let others := tables.rows.entries.filter fun entry => !(matched filter entry).isSome
  have hperm : (order.map entryOf ++ others).Perm tables.rows.entries := by
    have hmatching := (h.map entryOf).append_right others
    rw [map_entryOf] at hmatching
    exact hmatching.trans (List.filter_append_perm _ _)
  have hkeys : (order.map entryOf ++ others).NodupKeys :=
    (List.perm_nodupKeys hperm).mpr tables.rows.nodupKeys
  refine ⟨⟨⟨order.map entryOf ++ others, hkeys⟩, tables.credentials⟩, ⟨hperm, rfl⟩, ?_⟩
  have hmatching : ∀ product ∈ order, matched filter (entryOf product) = some product := by
    intro product hproduct
    obtain ⟨entry, _, hentry⟩ := List.mem_filterMap.mp (h.mem_iff.mp hproduct)
    exact matched_eq_some.mpr ⟨rfl, (matched_eq_some.mp hentry).2⟩
  have hothers : others.filterMap (matched filter) = [] := by
    rw [List.filterMap_eq_nil_iff]
    intro entry hentry
    simpa using (List.mem_filter.mp hentry).2
  rw [filteredProducts_eq, List.filterMap_append, hothers, List.append_nil, List.filterMap_map]
  exact (List.filterMap_congr hmatching).trans List.filterMap_some

end Filter

/-! ## The requests of the pages -/

section Pages

variable {subject : Uuid} {status : Option ProductStatus} {category : Option String} {size : Nat}
  {tables : Tables}

theorem alone_ask {exec : (statement : ApiStatement) → ApiSession →
      Option (ApiAnswer statement × ApiSession)} {statement : ApiStatement} {s s' : ApiSession}
    {β : Type} {next : ApiResult statement → ApiHandler β} :
    (∀ result, exec statement s = some (.ok result, s') →
      (ask statement >>= next).alone exec s = (next result).alone exec s') ∧
    ∀ error, exec statement s = some (.error error, s') →
      (ask statement >>= next).alone exec s = some (.error (.db error), s') := by
  constructor
  · intro result h
    exact Program.alone_step _ h
  · intro error h
    exact Program.alone_step _ h

/-- A page is a window of the matching products in the order of the table. -/
theorem productPage_eq {user : User} (huser : tables.rows.lookup (.user subject) = some user)
    (page : Nat) : productPage subject status category size tables page =
      some (if page * size < 2 ^ 63 ∧ size < 2 ^ 63 then
        .ok (.products
          (window size (filteredProducts tables.rows (queryFilter status category)) page)
          (filteredProducts tables.rows (queryFilter status category)).length page size)
      else .error (.db .failure)) := by
  have hselect : executeApi (.selectUser subject) (sendPage (.selectUser subject))
      ⟨tables, tables⟩ = some (.ok (some user), ⟨tables, tables⟩) :=
    congrArg (fun found => some (Except.ok found, _)) huser
  have hcurrent : (getCurrentUser subject).alone
      (fun statement => executeApi statement (sendPage statement)) ⟨tables, tables⟩ =
        some (.ok user, ⟨tables, tables⟩) := by
    rw [getCurrentUser, alone_ask.left _ hselect]
    rfl
  have hcount : executeApi (.countProducts (queryFilter status category))
      (sendPage (.countProducts (queryFilter status category))) ⟨tables, tables⟩ =
        some (.ok (filteredProducts tables.rows (queryFilter status category)).length,
          ⟨tables, tables⟩) := rfl
  rw [productPage, listProducts, Program.alone_bind, hcurrent]
  simp only
  rw [alone_ask.left _ hcount]
  by_cases hsent : page * size < 2 ^ 63 ∧ size < 2 ^ 63
  · have hrows : executeApi (.selectProducts (queryFilter status category) (page * size) size)
        (sendPage (.selectProducts (queryFilter status category) (page * size) size))
          ⟨tables, tables⟩ =
        some (.ok (window size (filteredProducts tables.rows (queryFilter status category)) page),
          ⟨tables, tables⟩) := by
      rw [sendPage, if_pos hsent]
      rfl
    rw [alone_ask.left _ hrows, if_pos hsent]
    rfl
  · have hrows : executeApi (.selectProducts (queryFilter status category) (page * size) size)
        (sendPage (.selectProducts (queryFilter status category) (page * size) size))
          ⟨tables, tables⟩ = some (.error .failure, ⟨tables, tables⟩) := by
      rw [sendPage, if_neg hsent]
      rfl
    rw [alone_ask.right _ hrows, if_neg hsent]
    rfl

/-- The pages, each requested on the tables in an order of their own, have every
    matching product once between them. -/
def Partitions (subject : Uuid) (status : Option ProductStatus) (category : Option String)
    (size : Nat) (tables : Tables) (seen : Nat → Tables) : Prop :=
  let products := filteredProducts tables.rows (queryFilter status category)
  ∃ items : Nat → List (Uuid × Product),
    (∀ page < pageCount products.length size,
      productPage subject status category size (seen page) page =
        some (.ok (.products (items page) products.length page size))) ∧
      (pages products.length size items).Perm products

end Pages

/-- The pages partition the matching products, in whatever orders the queries see
    them, if and only if one page holds them all. -/
theorem pages_partition_iff {subject : Uuid} {user : User} (status : Option ProductStatus)
    (category : Option String) {size : Nat} (hsize : 1 ≤ size) {tables : Tables}
    (huser : tables.rows.lookup (.user subject) = some user) :
    (∀ seen : Nat → Tables, (∀ page, SameTables tables (seen page)) →
      Partitions subject status category size tables seen) ↔
      (filteredProducts tables.rows (queryFilter status category)).length ≤ size ∧
        (filteredProducts tables.rows (queryFilter status category) = [] ∨ size < 2 ^ 63) := by
  have hpage : ∀ {seen : Nat → Tables}, (∀ page, SameTables tables (seen page)) → ∀ page,
      productPage subject status category size (seen page) page = _ :=
    fun hseen page => productPage_eq (((hseen page).lookup (.user subject)).trans huser) page
  have hlength : ∀ {seen : Nat → Tables}, (∀ page, SameTables tables (seen page)) → ∀ page,
      (filteredProducts (seen page).rows (queryFilter status category)).length =
        (filteredProducts tables.rows (queryFilter status category)).length :=
    fun hseen page => (hseen page).filtered.length_eq
  have hnodup : (filteredProducts tables.rows (queryFilter status category)).Nodup :=
    nodup_filteredProducts tables.rows
  constructor
  · intro h
    constructor
    · rw [← pages_perm_iff hnodup hsize]
      intro orders hshows
      choose seen hseen horder using fun page => exists_sameTables tables (hshows page)
      obtain ⟨items, hitems, hperm⟩ := h seen hseen
      have hwindows : ∀ page < pageCount
          (filteredProducts tables.rows (queryFilter status category)).length size,
          items page = window size (orders page) page := by
        intro page hcount
        have hanswer := (hpage hseen page).symm.trans (hitems page hcount)
        rw [horder] at hanswer
        split at hanswer
        · exact (ApiResponse.products.inj (Except.ok.inj (Option.some.inj hanswer))).1.symm
        · cases hanswer
      rwa [pages_congr hwindows] at hperm
    · by_contra hneither
      rw [not_or] at hneither
      have hsame : ∀ page : Nat, SameTables tables tables := fun _ => ⟨List.Perm.refl _, rfl⟩
      obtain ⟨items, hitems, _⟩ := h (fun _ => tables) hsame
      have hpos := pageCount_pos hsize (List.length_pos_iff.mpr hneither.1)
      have hanswer := (hpage hsame 0).symm.trans (hitems 0 hpos)
      rw [if_neg fun hsent => hneither.2 hsent.2] at hanswer
      cases hanswer
  · rintro ⟨hone, hsent⟩ seen hseen
    refine ⟨fun page => window size
      (filteredProducts (seen page).rows (queryFilter status category)) page, ?_, ?_⟩
    · intro page hcount
      obtain rfl : page = 0 := by
        have hle := pageCount_le_one hone
        omega
      have hsome : filteredProducts tables.rows (queryFilter status category) ≠ [] := by
        intro hnil
        rw [hnil, List.length_nil, pageCount_zero hsize] at hcount
        omega
      have hbound := hsent.resolve_left hsome
      rw [hpage hseen, if_pos ⟨by omega, hbound⟩, hlength hseen]
    · exact (pages_perm_iff hnodup hsize).mpr hone _ fun page => (hseen page).filtered

/-- Pages that are all cut from one order of the table partition the products. -/
theorem partitions_of_one_order {subject : Uuid} {user : User} (status : Option ProductStatus)
    (category : Option String) {size : Nat} (hsize : 1 ≤ size) {tables tables' : Tables}
    (huser : tables.rows.lookup (.user subject) = some user) (hsame : SameTables tables tables')
    (hbound : (filteredProducts tables.rows (queryFilter status category)).length + size < 2 ^ 63) :
    Partitions subject status category size tables fun _ => tables' := by
  have hlength : (filteredProducts tables'.rows (queryFilter status category)).length =
      (filteredProducts tables.rows (queryFilter status category)).length :=
    hsame.filtered.length_eq
  refine ⟨window size (filteredProducts tables'.rows (queryFilter status category)), ?_, ?_⟩
  · intro page hcount
    have hoffset : page * size < 2 ^ 63 := by
      have hle : (page + 1) * size ≤
          (filteredProducts tables.rows (queryFilter status category)).length + size - 1 :=
        (Nat.mul_le_mul_right size hcount).trans (Nat.div_mul_le_self _ _)
      rw [Nat.add_mul] at hle
      omega
    rw [productPage_eq ((hsame.lookup (.user subject)).trans huser), hlength,
      if_pos ⟨hoffset, by omega⟩]
  · rw [← hlength, pages_window _ hsize]
    exact hsame.filtered

/-! ## Two products on two pages -/

def soldDesk : Product := { soldLamp with name := "Desk", category := "Table" }

def catalogue : Tables where
  rows := (((∅ : Rows).insert (.product 3) soldDesk).insert (.product 2) soldLamp).insert
    (.user 1) ⟨.seller⟩
  credentials := ∅

/-- The same catalogue with the desk before the lamp. -/
def reordered : Tables where
  rows := (((∅ : Rows).insert (.product 2) soldLamp).insert (.product 3) soldDesk).insert
    (.user 1) ⟨.seller⟩
  credentials := ∅

theorem sameTables_reordered : SameTables catalogue reordered where
  rows := (List.Perm.swap _ _ _).cons _
  credentials := rfl

theorem pages_partition_default : Partitions 1 none none 20 catalogue fun _ => reordered :=
  (pages_partition_iff none none (by decide) rfl).mpr ⟨by decide, Or.inr (by decide)⟩
    (fun _ => reordered) fun _ => sameTables_reordered

/-- The second page shows the lamp again, and no page shows the desk. -/
theorem lamp_on_both_pages :
    SameTables catalogue reordered ∧
      productPage 1 none none 1 catalogue 0 = some (.ok (.products [(2, soldLamp)] 2 0 1)) ∧
      productPage 1 none none 1 reordered 1 = some (.ok (.products [(2, soldLamp)] 2 1 1)) ∧
      ¬ Partitions 1 none none 1 catalogue fun page =>
          if page = 0 then catalogue else reordered := by
  have hfirst : productPage 1 none none 1 catalogue 0 =
      some (.ok (.products [(2, soldLamp)] 2 0 1)) := rfl
  have hsecond : productPage 1 none none 1 reordered 1 =
      some (.ok (.products [(2, soldLamp)] 2 1 1)) := rfl
  refine ⟨sameTables_reordered, hfirst, hsecond, ?_⟩
  rintro ⟨items, hitems, hperm⟩
  have hzero := hfirst.symm.trans (hitems 0 (by decide))
  have hone := hsecond.symm.trans (hitems 1 (by decide))
  have hitems₀ := (ApiResponse.products.inj (Except.ok.inj (Option.some.inj hzero))).1
  have hitems₁ := (ApiResponse.products.inj (Except.ok.inj (Option.some.inj hone))).1
  have hpages : pages 2 1 items = [(2, soldLamp), (2, soldLamp)] := by
    have hrange : List.range (pageCount 2 1) = [0, 1] := by decide
    rw [pages, hrange, List.flatMap_cons, List.flatMap_cons, ← hitems₀, ← hitems₁]
    rfl
  have hnodup := hperm.nodup_iff.mpr (nodup_filteredProducts catalogue.rows)
  have hlength : (filteredProducts catalogue.rows (queryFilter none none)).length = 2 := rfl
  rw [hlength, hpages] at hnodup
  simp at hnodup

end SoaHomework.Marketplace

import SoaHomework.Marketplace

/-!
# Updates of products

`update_product` assigns the fields that the payload gives, a `null` included,
to a row whose columns are bounded and, but for one, `NOT NULL`. A request that
runs with no other commits what the payload says if and only if each of its
values is one that the column holds as it is.
-/

namespace SoaHomework.Marketplace

open StatementProgram

/-! ## Running alone -/

/-- A text that can be sent: `psycopg2` refuses a NUL. -/
def sendableText (text : String) : Bool := !text.toList.contains (Char.ofNat 0)

def ProductChange.sendable (change : ProductChange) : Bool :=
  ([change.name, change.description, change.category].filterMap Option.join).all sendableText

/-- No statement fails but one that cannot be sent. -/
def send : Statement → Choice
  | .updateProduct _ change => if change.sendable then .proceed [] else .failure
  | _ => .proceed []

abbrev executeSent (statement : Statement) (s : State) : Option (Answer statement × State) :=
  execute 0 statement (send statement) s

/-- The answer to a request that runs with no other on the committed rows, and
    the rows that it commits. -/
def Request.runAlone (settings : Settings) (request : Request) (rows : Rows) :
    Option (Except HandlerError Response × Rows) :=
  ((handle settings request).alone executeSent (State.ofRows rows)).map
    fun (result, s) => (result, s.db.rows)

section Alone

variable {β σ : Type} {exec : (statement : Statement) → σ → Option (Answer statement × σ)}
  {s s' : σ} {statement : Statement} {next : Result statement → Handler β}

theorem alone_query {result : Result statement} (h : exec statement s = some (.ok result, s')) :
    (query statement >>= next).alone exec s = (next result).alone exec s' := by
  have hstep : query statement >>= next =
      .step statement fun answer => returnError answer >>= next := rfl
  rw [hstep, Program.alone_step _ h]
  rfl

theorem alone_query_error {error : DbError} (h : exec statement s = some (.error error, s')) :
    (query statement >>= next).alone exec s = some (.error (.db error), s') := by
  have hstep : query statement >>= next =
      .step statement fun answer => returnError answer >>= next := rfl
  rw [hstep, Program.alone_step _ h]
  rfl

end Alone

/-! ## The fields of a payload -/

/-- An absent field is left as it is, and a given one has its value. -/
structure Field.Assigns {α : Type} (field : Field α) (old new : α) : Prop where
  absent : field = .absent → new = old
  given : ∀ given, field = .value given → new = given

/-- The same for the nullable column. -/
structure Field.AssignsNullable {α : Type} (field : Field α) (old new : Option α) : Prop where
  absent : field = .absent → new = old
  null : field = .null → new = none
  given : ∀ given, field = .value given → new = some given

structure ProductUpdate.Assigns (payload : ProductUpdate) (old new : Product) : Prop where
  name : payload.name.Assigns old.name new.name
  description : payload.description.AssignsNullable old.description new.description
  price : payload.price.Assigns old.price new.price
  stock : payload.stock.Assigns old.stock new.stock
  category : payload.category.Assigns old.category new.category
  status : payload.status.Assigns old.status new.status
  sellerID : new.sellerID = old.sellerID

/-- A value that the column holds, or none at all. -/
def Field.held {α : Type} (holds : α → Bool) : Field α → Bool
  | .absent => true
  | .null => false
  | .value given => holds given

def Field.heldNullable {α : Type} (holds : α → Bool) : Field α → Bool
  | .absent => true
  | .null => true
  | .value given => holds given

/-- A price that `Numeric(12, 2)` holds as it is. -/
def heldPrice (price : ℚ) : Bool := decide (round2 price = price) && fitsNumeric price

/-- Every field is one that its column holds. -/
def ProductUpdate.held (payload : ProductUpdate) : Bool :=
  payload.name.held sendableText && payload.description.heldNullable sendableText &&
    payload.price.held heldPrice && payload.stock.held fitsInteger &&
    payload.category.held sendableText && payload.status.held fun _ => true

/-- A row as its columns hold it. -/
structure Product.Held (product : Product) : Prop where
  name : sendableText product.name = true
  description : ∀ text, product.description = some text → sendableText text = true
  price : heldPrice product.price = true
  stock : fitsInteger product.stock = true
  category : sendableText product.category = true

section Assign

variable {α : Type} [DecidableEq α] {holds : α → Bool}

theorem column_assignField {field : Field α} (old : α) (h : field ≠ .null) :
    field.Assigns old (column (assignField field old) old) := by
  cases field with
  | absent => exact ⟨fun _ => rfl, nofun⟩
  | null => exact absurd rfl h
  | value value =>
      refine ⟨nofun, fun given heq => ?_⟩
      obtain rfl := Field.value.inj heq
      by_cases hold : value = old
      · simp [assignField, column, hold]
      · simp [assignField, column, hold]

omit [DecidableEq α] in
/-- A field that is no `null` determines what the column holds. -/
theorem Field.Assigns.unique {field : Field α} {old new new' : α} (h : field ≠ .null)
    (hnew : field.Assigns old new) (hnew' : field.Assigns old new') : new = new' := by
  cases field with
  | absent => exact (hnew.absent rfl).trans (hnew'.absent rfl).symm
  | null => exact absurd rfl h
  | value given => exact (hnew.given given rfl).trans (hnew'.given given rfl).symm

theorem getD_assignNullable (field : Field α) (old : Option α) :
    field.AssignsNullable old ((assignNullable field old).getD old) := by
  cases field with
  | absent =>
      exact ⟨fun _ => rfl, nofun, nofun⟩
  | null =>
      refine ⟨nofun, fun _ => ?_, nofun⟩
      by_cases hold : old = none
      · simp [assignNullable, hold]
      · simp [assignNullable, hold]
  | value value =>
      refine ⟨nofun, nofun, fun given heq => ?_⟩
      obtain rfl := Field.value.inj heq
      by_cases hold : old = some value
      · simp [assignNullable, hold]
      · simp [assignNullable, hold]

theorem assignField_eq_null {field : Field α} {old : α} :
    assignField field old = some none ↔ field = .null := by
  cases field with
  | absent => simp [assignField]
  | null => simp [assignField]
  | value value =>
      by_cases hold : value = old
      · simp [assignField, hold]
      · simp [assignField, hold]

omit [DecidableEq α] in
theorem held_any (field : Field α) : field.held (fun _ => true) = true ↔ field ≠ .null := by
  cases field <;> simp [Field.held]

/-- What a field brings into the column is its value. -/
theorem held_iff {field : Field α} {old : α} (hold : holds old = true) :
    field.held holds = true ↔
      field ≠ .null ∧ holds (column (assignField field old) old) = true := by
  cases field with
  | absent => simp [Field.held, assignField, column, hold]
  | null => simp [Field.held]
  | value value =>
      by_cases heq : value = old
      · simp [Field.held, assignField, column, heq]
      · simp [Field.held, assignField, column, heq]

end Assign

/-! ## A request that updates a product -/

/-- The user may update the product. -/
structure MayUpdate (rows : Rows) (subject id : Uuid) (product : Product) : Prop where
  row : rows.lookup (.product id) = some product
  user : ∃ user : User, rows.lookup (.user subject) = some user ∧
    (user.role = .admin ∨ user.role = .seller ∧ product.sellerID = subject)

section Update

variable {rows : Rows} {subject id : Uuid} {product : Product} {payload : ProductUpdate}
  {s : State}

theorem execute_selectUser (hdb : s.db = RowStore.ofRows rows) (subject : Uuid) :
    ∃ s', s'.db = RowStore.ofRows rows ∧
      executeSent (.selectUser subject) s = some (.ok (rows.lookup (.user subject)), s') := by
  have hread : s.db.read 0 (.user subject) = rows.lookup (.user subject) := by
    rw [hdb]
    exact AList.lookup_union_right (AList.notMem_empty _)
  refine ⟨s.withSession 0 { s.sessions 0 with began := (s.sessions 0).began.or (some s.clock) },
    hdb, ?_⟩
  simp only [executeSent, send, execute, proceed, answerLoaded, hread]

theorem execute_selectProduct (hdb : s.db = RowStore.ofRows rows) (id : Uuid) :
    executeSent (.selectProduct id) s = some (.ok (rows.lookup (.product id)), s) := by
  have hread : s.db.read 0 (.product id) = rows.lookup (.product id) := by
    rw [hdb]
    exact AList.lookup_union_right (AList.notMem_empty _)
  simp only [executeSent, send, execute, proceed, answerRead, hread]

/-- The handler when it has read the row. -/
theorem alone_updateProduct (h : MayUpdate rows subject id product) :
    ∃ s, s.db = RowStore.ofRows rows ∧
      (updateProduct subject id payload).alone executeSent (State.ofRows rows) =
        (flushProduct id (productChange payload product) >>= fun _ =>
          query .commit >>= fun _ => productResponse id).alone executeSent s := by
  obtain ⟨user, huser, hrole⟩ := h.user
  obtain ⟨s, hdb, hselect⟩ := execute_selectUser (s := State.ofRows rows) rfl subject
  have hproduct := execute_selectProduct hdb id
  rw [huser] at hselect
  rw [h.row] at hproduct
  have hmember : user.role ∈ [UserRole.seller, UserRole.admin] := by
    rcases hrole with hadmin | ⟨hseller, _⟩
    · simp [hadmin]
    · simp [hseller]
  have howner : (decide (user.role = .seller) && decide (product.sellerID ≠ subject)) = false := by
    rcases hrole with hadmin | ⟨_, hsubject⟩
    · simp [hadmin]
    · simp [hsubject]
  have hroles : (requireRoles [.seller, .admin] subject).alone executeSent (State.ofRows rows) =
      some (.ok user, s) := by
    rw [requireRoles, alone_query hselect]
    simp only [require, Program.ret_bind, if_pos hmember]
    rfl
  have hload : (loadProduct subject user id).alone executeSent s = some (.ok product, s) := by
    rw [loadProduct, alone_query hproduct]
    simp only [require, Program.ret_bind, howner, Program.raiseIf]
    rfl
  refine ⟨s, hdb, ?_⟩
  rw [updateProduct, Program.alone_bind, hroles]
  simp only
  rw [Program.alone_bind, hload]

/-- The end of a request, which commits what the session has written. -/
theorem alone_commit {new : Product}
    (hnew : (s.db.view 0).lookup (.product id) = some new) :
    ∃ s', s'.db.rows = s.db.view 0 ∧
      (query .commit >>= fun _ => productResponse id).alone executeSent s =
        some (.ok (.product id new), s') := by
  have hcommit : executeSent .commit s =
      some (.ok (), (s.withDb (s.db.commit 0)).withSession 0 .empty) := rfl
  have hread : (s.db.commit 0).read 0 (.product id) = some new := by
    rw [RowStore.read_of_not_pending]
    · exact hnew
    · simp [RowStore.commit, RowStore.finish]
  refine ⟨(s.withDb (s.db.commit 0)).withSession 0 .empty, rfl, ?_⟩
  have hrefresh : executeSent (.refreshProduct id)
      ((s.withDb (s.db.commit 0)).withSession 0 .empty) =
        some (.ok (some new), (s.withDb (s.db.commit 0)).withSession 0 .empty) := by
    simp only [executeSent, send, execute, proceed, answerRead]
    exact congrArg (fun row => some (Except.ok row, _)) hread
  rw [alone_query hcommit, productResponse, alone_query hrefresh]
  rfl

/-- The row that a change makes, as its columns hold it. -/
abbrev ProductChange.written (change : ProductChange) (product : Product) : Product :=
  (change.apply product).stored

/-- The database takes the change. -/
structure ProductChange.Taken (change : ProductChange) (product : Product) : Prop where
  sendable : change.sendable = true
  notNull : change.violatesNotNull = false
  fits : (change.written product).fits = true

/-- The update of a row that no other session has locked. -/
theorem execute_updateProduct (hdb : s.db = RowStore.ofRows rows)
    (hrow : rows.lookup (.product id) = some product) (change : ProductChange) :
    (change.Taken product ∧ ∃ s', s'.db.view 0 =
        (∅ : Rows).insert (.product id) (change.written product) ∪ rows ∧
      executeSent (.updateProduct id change) s = some (.ok (), s')) ∨
    (¬ change.Taken product ∧ ∃ error s', s'.db.rows = rows ∧
      executeSent (.updateProduct id change) s = some (.error error, s')) := by
  have hread : (RowStore.ofRows rows : Db).read 0 (.product id) = some product :=
    (AList.lookup_union_right (AList.notMem_empty _)).trans hrow
  cases hsendable : change.sendable with
  | false =>
      refine Or.inr ⟨fun h => ?_, .failure, s, congrArg RowStore.rows hdb, ?_⟩
      · cases hsendable.symm.trans h.sendable
      · simp [executeSent, send, hsendable, execute]
  | true =>
      cases hnull : change.violatesNotNull with
      | true =>
          refine Or.inr ⟨fun h => ?_, .notNullViolation, s, congrArg RowStore.rows hdb, ?_⟩
          · cases hnull.symm.trans h.notNull
          · simp [executeSent, send, hsendable, execute, proceed, hnull]
      | false =>
          let locked : Db :=
            { (RowStore.ofRows rows : Db) with
              locks := Function.update (fun _ => none) (.inl (.product id)) (some 0) }
          have hupdate : (RowStore.ofRows rows : Db).update 0 (.product id)
              (fun p : Product => (change.apply p).stored) Product.fits =
                some (if (change.written product).fits then
                  (.written (change.written product),
                    locked.put 0 (.product id) (change.written product))
                else (.rejected, locked)) := by
            simp only [RowStore.update, hread]
            rfl
          have hexec : executeSent (.updateProduct id change) s =
              answerUpdate s (some (if (change.written product).fits then
                (.written (change.written product),
                  locked.put 0 (.product id) (change.written product))
              else (.rejected, locked))) := by
            rw [← hupdate, ← hdb]
            simp [executeSent, send, hsendable, execute, proceed, hnull]
          cases hfits : (change.written product).fits with
          | false =>
              rw [hfits] at hexec
              refine Or.inr ⟨fun h => ?_, .outOfRange, s.withDb locked, rfl, hexec⟩
              cases hfits.symm.trans h.fits
          | true =>
              rw [hfits] at hexec
              refine Or.inl ⟨⟨hsendable, hnull, hfits⟩,
                s.withDb (locked.put 0 (.product id) (change.written product)), ?_, hexec⟩
              simp [State.withDb, RowStore.view, locked, RowStore.ofRows]

/-- A request that changes no column sends no update. -/
theorem apply_empty (product : Product) :
    (⟨none, none, none, none, none, none⟩ : ProductChange).apply product = product := rfl

theorem stored_of_held (hproduct : product.Held) : product.stored = product := by
  have hprice : round2 product.price = product.price := by
    have hheld := hproduct.price
    simp only [heldPrice, Bool.and_eq_true, decide_eq_true_eq] at hheld
    exact hheld.1
  rw [Product.stored, hprice]

theorem fits_of_held (hproduct : product.Held) : product.fits = true := by
  have hprice := hproduct.price
  simp only [heldPrice, Bool.and_eq_true] at hprice
  rw [Product.fits, hproduct.stock, hprice.2]
  rfl

/-- A request answers with the row that it has committed if the database takes
    its change, and with an error and the old rows if not. -/
theorem run_updateProduct (settings : Settings) (h : MayUpdate rows subject id product)
    (hproduct : product.Held) :
    ((productChange payload product).Taken product ∧ ∃ rows',
      (Request.updateProduct subject id payload).runAlone settings rows =
        some (.ok (.product id ((productChange payload product).written product)), rows') ∧
      rows'.lookup (.product id) = some ((productChange payload product).written product) ∧
      ∀ k, k ≠ .product id → rows'.lookup k = rows.lookup k) ∨
    (¬ (productChange payload product).Taken product ∧ ∃ error,
      (Request.updateProduct subject id payload).runAlone settings rows =
        some (.error error, rows)) := by
  obtain ⟨s, hdb, hloaded⟩ := alone_updateProduct h
  have hrun : (Request.updateProduct subject id payload).runAlone settings rows =
      ((updateProduct subject id payload).alone executeSent (State.ofRows rows)).map
        fun (result, s) => (result, s.db.rows) := rfl
  rw [hrun, hloaded]
  generalize productChange payload product = change
  by_cases hempty : change = ⟨none, none, none, none, none, none⟩
  · have hsame : change.written product = product := by
      rw [ProductChange.written, hempty, apply_empty, stored_of_held hproduct]
    have hview : s.db.view 0 = rows := by
      rw [hdb]
      exact AList.empty_union
    obtain ⟨s', hrows, hcommit⟩ := alone_commit (by rw [hview]; exact h.row)
    refine Or.inl ⟨⟨?_, ?_, ?_⟩, rows, ?_, ?_, fun _ _ => rfl⟩
    · rw [hempty]
      rfl
    · rw [hempty]
      rfl
    · rw [hsame, fits_of_held hproduct]
    · rw [flushProduct, if_pos hempty, Program.ret_bind, hcommit, hsame]
      simp only [Option.map_some]
      rw [hrows, hview]
    · rw [hsame, h.row]
  · rw [flushProduct, if_neg hempty]
    rcases execute_updateProduct hdb h.row change with
      ⟨htaken, s', hview, hexec⟩ | ⟨hnot, error, s', hrows, hexec⟩
    · have hlookup : (s'.db.view 0).lookup (.product id) = some (change.written product) := by
        rw [hview, RowStore.lookup_union_or, AList.lookup_insert, Option.some_or]
      obtain ⟨s'', hrows, hcommit⟩ := alone_commit hlookup
      refine Or.inl ⟨htaken, s'.db.view 0, ?_, hlookup, fun k hk => ?_⟩
      · rw [alone_query hexec, hcommit]
        simp only [Option.map_some]
        rw [hrows]
      · rw [hview, RowStore.lookup_union_or, AList.lookup_insert_ne hk, AList.lookup_empty,
          Option.none_or]
    · refine Or.inr ⟨hnot, .db error, ?_⟩
      rw [alone_query_error hexec]
      simp only [Option.map_some]
      rw [hrows]

/-- The text that a change sends, or the one that is there. -/
theorem sendable_column {change : Option (Option String)} {old : String}
    (hold : sendableText old = true) : sendableText (column change old) = true ↔
      ∀ text, change = some (some text) → sendableText text = true := by
  rcases change with _ | _ | text
  · simp [column, hold]
  · simp [column, hold]
  · simp [column]

theorem sendable_iff (change : ProductChange) : change.sendable = true ↔
    (∀ text, change.name = some (some text) → sendableText text = true) ∧
      (∀ text, change.description = some (some text) → sendableText text = true) ∧
      ∀ text, change.category = some (some text) → sendableText text = true := by
  simp only [ProductChange.sendable, List.all_eq_true, List.mem_filterMap, List.mem_cons,
    List.not_mem_nil, or_false]
  constructor
  · intro h
    refine ⟨fun text heq => h text ⟨_, Or.inl rfl, ?_⟩,
      fun text heq => h text ⟨_, Or.inr (Or.inl rfl), ?_⟩,
      fun text heq => h text ⟨_, Or.inr (Or.inr rfl), ?_⟩⟩
    · rw [heq]
      rfl
    · rw [heq]
      rfl
    · rw [heq]
      rfl
  · rintro ⟨hname, hdescription, hcategory⟩ text ⟨_, rfl | rfl | rfl, hjoin⟩
    · exact hname text (Option.join_eq_some_iff.mp hjoin)
    · exact hdescription text (Option.join_eq_some_iff.mp hjoin)
    · exact hcategory text (Option.join_eq_some_iff.mp hjoin)

theorem notNull_iff : (productChange payload product).violatesNotNull = false ↔
    payload.name ≠ .null ∧ payload.price ≠ .null ∧ payload.stock ≠ .null ∧
      payload.category ≠ .null ∧ payload.status ≠ .null := by
  simp only [ProductChange.violatesNotNull, productChange, Bool.or_eq_false_iff,
    beq_eq_false_iff_ne, ne_eq, assignField_eq_null, and_assoc]

/-- The description that is sent. -/
theorem held_description (hproduct : product.Held) :
    payload.description.heldNullable sendableText = true ↔
      ∀ text, (productChange payload product).description = some (some text) →
        sendableText text = true := by
  simp only [productChange]
  cases hdescription : payload.description with
  | absent => simp [Field.heldNullable, assignNullable]
  | null => simp [Field.heldNullable, assignNullable]
  | value given =>
      by_cases hold : product.description = some given
      · simp [Field.heldNullable, assignNullable, hold, hproduct.description given hold]
      · simp [Field.heldNullable, assignNullable, hold]

/-- The fields are held if no column is set to `NULL`, the texts can be sent and
    the columns hold the new price and the new stock. -/
theorem held_iff_change (hproduct : product.Held) : payload.held = true ↔
    (productChange payload product).violatesNotNull = false ∧
      (productChange payload product).sendable = true ∧
      heldPrice ((productChange payload product).apply product).price = true ∧
      fitsInteger ((productChange payload product).apply product).stock = true := by
  have hname : payload.name.held sendableText = true ↔ _ := held_iff hproduct.name
  have hprice : payload.price.held heldPrice = true ↔ _ := held_iff hproduct.price
  have hstock : payload.stock.held fitsInteger = true ↔ _ := held_iff hproduct.stock
  have hcategory : payload.category.held sendableText = true ↔ _ := held_iff hproduct.category
  rw [sendable_column hproduct.name] at hname
  rw [sendable_column hproduct.category] at hcategory
  rw [notNull_iff, sendable_iff]
  simp only [ProductUpdate.held, Bool.and_eq_true, hname, held_description hproduct, hprice,
    hstock, hcategory, held_any, productChange, ProductChange.apply]
  tauto

theorem assigns_apply (h : (productChange payload product).violatesNotNull = false) :
    payload.Assigns product ((productChange payload product).apply product) := by
  obtain ⟨hname, hprice, hstock, hcategory, hstatus⟩ := notNull_iff.mp h
  exact ⟨column_assignField _ hname, getD_assignNullable _ _, column_assignField _ hprice,
    column_assignField _ hstock, column_assignField _ hcategory, column_assignField _ hstatus, rfl⟩

/-- The database takes a change and writes what the payload says if and only if
    the columns hold the fields. -/
theorem taken_iff_held (hproduct : product.Held) :
    (productChange payload product).Taken product ∧
        payload.Assigns product ((productChange payload product).written product) ↔
      payload.held = true := by
  rw [held_iff_change hproduct]
  have happly : (productChange payload product).violatesNotNull = false →
      payload.Assigns product _ := assigns_apply
  have hprices : ((productChange payload product).written product).price =
      round2 ((productChange payload product).apply product).price := rfl
  constructor
  · rintro ⟨htaken, hassigns⟩
    have hfits := htaken.fits
    have hround := hassigns.price.unique (notNull_iff.mp htaken.notNull).2.1
      (happly htaken.notNull).price
    rw [Product.fits, Bool.and_eq_true, hround] at hfits
    rw [hprices] at hround
    refine ⟨htaken.notNull, htaken.sendable, ?_, hfits.1⟩
    rw [heldPrice, decide_eq_true hround, hfits.2]
    rfl
  · rintro ⟨hnull, hsendable, hprice, hstock⟩
    rw [heldPrice, Bool.and_eq_true, decide_eq_true_eq] at hprice
    have hwritten : (productChange payload product).written product =
        (productChange payload product).apply product := by
      rw [ProductChange.written, Product.stored, hprice.1]
    refine ⟨⟨hsendable, hnull, ?_⟩, ?_⟩
    · rw [hwritten, Product.fits, hstock, hprice.2]
      rfl
    · rw [hwritten]
      exact happly hnull

end Update

/-- A permitted request with no other running commits a row in which the absent
    fields are unchanged and the given ones have their values, if and only if no
    field of a `NOT NULL` column is `null`, every value is one that its column
    holds as it is, and no text has a NUL. -/
theorem update_product_assigns (settings : Settings) (payload : ProductUpdate) {rows : Rows}
    {subject id : Uuid} {product : Product} (h : MayUpdate rows subject id product)
    (hproduct : product.Held) :
    (∃ rows' new, (Request.updateProduct subject id payload).runAlone settings rows =
        some (.ok (.product id new), rows') ∧
      rows'.lookup (.product id) = some new ∧
      (∀ k, k ≠ .product id → rows'.lookup k = rows.lookup k) ∧
      payload.Assigns product new) ↔ payload.held = true := by
  rw [← taken_iff_held hproduct]
  rcases run_updateProduct settings h hproduct with
    ⟨htaken, rows', hrun, hrow, hframe⟩ | ⟨hnot, error, hrun⟩
  · constructor
    · rintro ⟨_, new, hrun', _, _, hassigns⟩
      obtain ⟨hanswer, _⟩ := Prod.mk.inj (Option.some.inj (hrun.symm.trans hrun'))
      obtain ⟨_, rfl⟩ := Response.product.inj (Except.ok.inj hanswer)
      exact ⟨htaken, hassigns⟩
    · rintro ⟨_, hassigns⟩
      exact ⟨rows', _, hrun, hrow, hframe, hassigns⟩
  · constructor
    · rintro ⟨_, _, hrun', _⟩
      obtain ⟨hanswer, _⟩ := Prod.mk.inj (Option.some.inj (hrun.symm.trans hrun'))
      cases hanswer
    · rintro ⟨htaken, _⟩
      exact absurd htaken hnot

/-! ## A row and two payloads -/

def soldLamp : Product where
  name := "Lamp"
  description := none
  price := 10
  stock := 3
  category := "Light"
  status := .active
  sellerID := 1

def lampRows : Rows := ((∅ : Rows).insert (.user 1) ⟨.seller⟩).insert (.product 2) soldLamp

theorem mayUpdate_lamp : MayUpdate lampRows 1 2 soldLamp where
  row := rfl
  user := ⟨⟨.seller⟩, rfl, Or.inr ⟨rfl, rfl⟩⟩

theorem held_lamp : soldLamp.Held where
  name := by decide
  description := nofun
  price := by decide +kernel
  stock := by decide
  category := by decide

/-- Nothing but the stock and the description. -/
def restock : ProductUpdate where
  name := .absent
  description := .null
  price := .absent
  stock := .value 7
  category := .absent
  status := .absent
  priced := nofun
  nonneg := by
    rintro value heq
    cases heq
    decide

/-- `{"name": null}` -/
def nameless : ProductUpdate where
  name := .null
  description := .absent
  price := .absent
  stock := .absent
  category := .absent
  status := .absent
  priced := nofun
  nonneg := nofun

theorem update_product_assigns_restock :
    ∃ rows' new, (Request.updateProduct 1 2 restock).runAlone ⟨5⟩ lampRows =
        some (.ok (.product 2 new), rows') ∧
      rows'.lookup (.product 2) = some new ∧
      (∀ k, k ≠ .product 2 → rows'.lookup k = lampRows.lookup k) ∧
      restock.Assigns soldLamp new :=
  (update_product_assigns ⟨5⟩ restock mayUpdate_lamp held_lamp).mpr (by decide)

/-- A `null` for the name passes the validation and fails on the column. -/
theorem nameless_update_fails :
    (Request.updateProduct 1 2 nameless).runAlone ⟨5⟩ lampRows =
        some (.error (.db .notNullViolation), lampRows) ∧
      ¬ ∃ rows' new, (Request.updateProduct 1 2 nameless).runAlone ⟨5⟩ lampRows =
          some (.ok (.product 2 new), rows') ∧
        rows'.lookup (.product 2) = some new ∧
        (∀ k, k ≠ .product 2 → rows'.lookup k = lampRows.lookup k) ∧
        nameless.Assigns soldLamp new := by
  have hrun : (Request.updateProduct 1 2 nameless).runAlone ⟨5⟩ lampRows =
      some (.error (.db .notNullViolation), lampRows) := rfl
  refine ⟨hrun, ?_⟩
  rintro ⟨rows', new, hrun', _⟩
  obtain ⟨hanswer, _⟩ := Prod.mk.inj (Option.some.inj (hrun.symm.trans hrun'))
  cases hanswer

end SoaHomework.Marketplace

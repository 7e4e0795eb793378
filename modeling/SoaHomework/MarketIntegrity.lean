import SoaHomework.MarketApi
import SoaHomework.MarketAmounts

/-!
# Other people's data

What a user who is no admin leaves alone (`RespectsOthers`): the orders of
others, and the products of other sellers except for their stock, which moves
only by what the user's own orders hold of them. One commit leaves them alone
because its handler has checked who acts, a complete request because its steps
do.
-/

namespace SoaHomework.Marketplace

open StatementProgram

/-- What an order row of `u` holds of `p`. -/
def heldByWeight (rows : Rows) (u p : Uuid) : (k : Key) → Row k → Int
  | .order id, o => if o.userID = u then heldWeight rows p (.order id) o else 0
  | _, _ => 0

/-- The quantity of `p` over the items of the active orders of `u`. -/
def heldBy (rows : Rows) (u p : Uuid) : Int := rows.total (heldByWeight rows u p)

/-- From `rows` to `rows'` nothing has changed that belongs to others than `u`,
    but stocks by what the orders of `u` hold. -/
structure RespectsOthers (u : Uuid) (rows rows' : Rows) : Prop where
  orders : ∀ id o, rows.lookup (.order id) = some o → o.userID ≠ u →
    rows'.lookup (.order id) = some o ∧ itemsOf rows' id = itemsOf rows id
  own : ∀ id o, rows.lookup (.order id) = some o → o.userID = u →
    ∃ o', rows'.lookup (.order id) = some o' ∧ o'.userID = u
  created : ∀ id o, rows.lookup (.order id) = none → rows'.lookup (.order id) = some o →
    o.userID = u
  products : ∀ p product, rows.lookup (.product p) = some product → product.sellerID ≠ u →
    rows'.lookup (.product p) = some { product with stock := stockOf rows' p } ∧
      stockOf rows' p + heldBy rows' u p = stockOf rows p + heldBy rows u p

variable {settings : Settings} {rows₀ rows rows' rows'' written : Rows} {session : Session}
  {request : Request} {pool final : MarketPool} {event : MarketEvent} {u p id : Uuid}

/-! ## What orders hold -/

theorem weightAt_heldBy_other {k : Key} (hk : ∀ id, k ≠ .order id) (s : Rows) :
    s.weightAt (heldByWeight s u p) k = 0 := by
  cases hrow : s.lookup k with
  | none => exact AList.weightAt_of_lookup_none hrow
  | some row =>
      rw [AList.weightAt_of_lookup hrow]
      cases k with
      | order id => exact absurd rfl (hk id)
      | _ => rfl

/-- An order of `u` holds for `u` what it holds. -/
theorem weightAt_heldBy_own (h : ∀ o, rows.lookup (.order id) = some o → o.userID = u) :
    rows.weightAt (heldByWeight rows u p) (.order id) =
      rows.weightAt (heldWeight rows p) (.order id) := by
  cases ho : rows.lookup (.order id) with
  | none => rw [AList.weightAt_of_lookup_none ho, AList.weightAt_of_lookup_none ho]
  | some o =>
      rw [AList.weightAt_of_lookup ho, AList.weightAt_of_lookup ho]
      exact if_pos (h o ho)

theorem weightAt_heldBy_congr (horder : rows'.lookup (.order id) = rows.lookup (.order id))
    (hitems : rows'.lookup (.items id) = rows.lookup (.items id)) :
    rows'.weightAt (heldByWeight rows' u p) (.order id) =
      rows.weightAt (heldByWeight rows u p) (.order id) := by
  simp only [AList.weightAt, horder, heldByWeight, heldWeight, itemsOf_congr hitems]

/-- When one order changes, what the orders of `u` hold changes by what it
    holds. -/
theorem heldBy_of_others (id : Uuid)
    (h : ∀ id', id' ≠ id → rows'.lookup (.order id') = rows.lookup (.order id') ∧
      rows'.lookup (.items id') = rows.lookup (.items id')) :
    heldBy rows' u p = heldBy rows u p + (rows'.weightAt (heldByWeight rows' u p) (.order id) -
      rows.weightAt (heldByWeight rows u p) (.order id)) := by
  refine AList.total_sub_total (Key.order id) fun k hk => ?_
  cases k with
  | order id' =>
      have hne : id' ≠ id := fun heq => hk (by rw [heq])
      exact weightAt_heldBy_congr (h id' hne).1 (h id' hne).2
  | _ => rw [weightAt_heldBy_other (by simp), weightAt_heldBy_other (by simp)]

theorem heldBy_congr
    (h : ∀ id, rows'.lookup (.order id) = rows.lookup (.order id) ∧
      rows'.lookup (.items id) = rows.lookup (.items id)) : heldBy rows' u p = heldBy rows u p := by
  rw [heldBy_of_others 0 fun id _ => h id, weightAt_heldBy_congr (h 0).1 (h 0).2]
  omega

/-! ## The relation -/

theorem stockOf_of_lookup {product : Product} (h : rows.lookup (.product p) = some product) :
    stockOf rows p = product.stock := by
  simp only [stockOf, h]

/-- No order is written, and no product of others. -/
theorem respectsOthers_of_same
    (horders : ∀ id, rows'.lookup (.order id) = rows.lookup (.order id) ∧
      rows'.lookup (.items id) = rows.lookup (.items id))
    (hproducts : ∀ p product, rows.lookup (.product p) = some product → product.sellerID ≠ u →
      rows'.lookup (.product p) = some product) : RespectsOthers u rows rows' where
  orders id o ho _ := ⟨by rw [(horders id).1, ho], itemsOf_congr (horders id).2⟩
  own id o ho huser := ⟨o, by rw [(horders id).1, ho], huser⟩
  created id o hnone ho := by
    rw [(horders id).1, hnone] at ho
    cases ho
  products p product hp hseller := by
    have hp' := hproducts p product hp hseller
    rw [stockOf_of_lookup hp', stockOf_of_lookup hp, heldBy_congr horders]
    exact ⟨hp', rfl⟩

theorem RespectsOthers.refl (u : Uuid) (rows : Rows) : RespectsOthers u rows rows :=
  respectsOthers_of_same (fun _ => ⟨rfl, rfl⟩) fun _ _ hp _ => hp

theorem RespectsOthers.trans (h : RespectsOthers u rows rows')
    (h' : RespectsOthers u rows' rows'') : RespectsOthers u rows rows'' where
  orders id o ho hne := by
    obtain ⟨horder, hitems⟩ := h.orders id o ho hne
    obtain ⟨horder', hitems'⟩ := h'.orders id o horder hne
    exact ⟨horder', hitems'.trans hitems⟩
  own id o ho huser := by
    obtain ⟨o', ho', huser'⟩ := h.own id o ho huser
    exact h'.own id o' ho' huser'
  created id o hnone ho := by
    cases hmiddle : rows'.lookup (.order id) with
    | none => exact h'.created id o hmiddle ho
    | some o' =>
        obtain ⟨o'', ho'', huser⟩ := h'.own id o' hmiddle (h.created id o' hnone hmiddle)
        rw [ho, Option.some.injEq] at ho''
        rw [ho'', huser]
  products p product hp hseller := by
    obtain ⟨hp', hsum⟩ := h.products p product hp hseller
    obtain ⟨hp'', hsum'⟩ := h'.products p _ hp' hseller
    exact ⟨hp'', hsum'.trans hsum⟩

/-! ## One commit -/

/-- A request for an order of `u`. -/
theorem OrderWrite.respectsOthers {orderID : Uuid} {change : Uuid → Int}
    {uses : Option (Uuid × Int)}
    (h : OrderWrite written rows (written ∪ rows) orderID change uses)
    (hledger : ∀ p, ledger (written ∪ rows) p = ledger rows p)
    (hothers : OtherRows written id)
    (hbefore : ∀ o, rows.lookup (.order id) = some o → o.userID = u)
    (hafter : ∃ o, (written ∪ rows).lookup (.order id) = some o ∧ o.userID = u) :
    RespectsOthers u rows (written ∪ rows) := by
  have hsame : ∀ id', id' ≠ id →
      (written ∪ rows).lookup (.order id') = rows.lookup (.order id') ∧
        (written ∪ rows).lookup (.items id') = rows.lookup (.items id') :=
    fun id' hid => ⟨RowStore.lookup_union_of_none (hothers.orders id' hid).1,
      RowStore.lookup_union_of_none (hothers.orders id' hid).2⟩
  obtain ⟨o', ho', huser'⟩ := hafter
  constructor
  · intro id' o ho hne
    have hid : id' ≠ id := by
      rintro rfl
      exact hne (hbefore o ho)
    exact ⟨by rw [(hsame id' hid).1, ho], itemsOf_congr (hsame id' hid).2⟩
  · intro id' o ho huser
    by_cases hid : id' = id
    · subst hid
      exact ⟨o', ho', huser'⟩
    · exact ⟨o, by rw [(hsame id' hid).1, ho], huser⟩
  · intro id' o hnone ho
    by_cases hid : id' = id
    · subst hid
      rw [ho', Option.some.injEq] at ho
      exact ho ▸ huser'
    · rw [(hsame id' hid).1, hnone] at ho
      cases ho
  · intro p product hp _
    have hp' : (written ∪ rows).lookup (.product p) = some (product.addStock (change p)) := by
      rw [h.products, hp, Option.map_some]
    refine ⟨?_, ?_⟩
    · rw [hp', stockOf_of_lookup hp']
      rfl
    · have hbalance := hledger p
      have hown := weightAt_heldBy_own (p := p) hbefore
      have hown' : (written ∪ rows).weightAt (heldByWeight (written ∪ rows) u p) (.order id) =
          (written ∪ rows).weightAt (heldWeight (written ∪ rows) p) (.order id) := by
        apply weightAt_heldBy_own
        intro o ho
        rw [ho', Option.some.injEq] at ho
        exact ho ▸ huser'
      rw [ledger, ledger, held_of_others id hsame] at hbalance
      rw [heldBy_of_others id hsame, hown, hown']
      omega

/-- A request that writes one row of the catalogue, and no product of others. -/
theorem respectsOthers_of_catalog {k : Key} {row : Row k} (hk : k.isCatalog = true)
    (hown : ∀ p product, k = .product p → rows.lookup (.product p) = some product →
      product.sellerID = u) :
    RespectsOthers u rows ((∅ : Rows).insert k row ∪ rows) := by
  have horder : ∀ k', k'.isCatalog = false →
      ((∅ : Rows).insert k row ∪ rows).lookup k' = rows.lookup k' := by
    intro k' hk'
    apply RowStore.lookup_single_union
    rintro rfl
    rw [hk] at hk'
    cases hk'
  apply respectsOthers_of_same
  · exact fun id => ⟨horder _ rfl, horder _ rfl⟩
  · intro p product hp hseller
    rw [RowStore.lookup_single_union, hp]
    intro heq
    exact hseller (hown p product heq.symm hp)

/-- What a request of a user who is no admin commits respects others. -/
theorem Commit.respectsOthers (h : Commit rows written request)
    (heffect : Effect session written rows (written ∪ rows) request) (hrows : WellFormed rows)
    (hcurrent : Current session rows) (hsubject : request.subject = u)
    (hrole : ∀ user, rows.lookup (.user u) = some user → user.role ≠ .admin) :
    RespectsOthers u rows (written ∪ rows) := by
  have hledger : request.isForProduct = false →
      ∀ p, Marketplace.ledger (written ∪ rows) p = Marketplace.ledger rows p := by
    intro hother p
    have hmoved := heffect.ledger hrows hcurrent p
    simpa only [hother, Bool.false_eq_true, if_false, Int.add_zero] using hmoved
  have hown : ∀ {user : User} {o : Order}, rows.lookup (.user u) = some user →
      MayChange user u o → o.userID = u := by
    intro user o hrow hmay
    rcases hmay with hadmin | hown
    · exact absurd hadmin (hrole user hrow)
    · exact hown
  cases h with
  | createProduct user sellerID id _ _ hfresh hwritten =>
      subst hwritten
      apply respectsOthers_of_catalog rfl
      intro p product heq hp
      obtain rfl := Key.product.inj heq
      exact absurd (mem_of_lookup hp) hfresh
  | writeProduct user product subject id change hrequest hacts hrow howner _ hwritten =>
      have hsubject' : subject = u := by
        rcases hrequest with ⟨payload, rfl⟩ | rfl
        · exact hsubject
        · exact hsubject
      subst hsubject'
      -- the only role besides the admin's that may write a product
      have hseller : product.sellerID = subject := by
        apply howner
        rcases List.mem_pair.mp hacts.role with hrole' | hrole'
        · exact hrole'
        · exact absurd hrole' (hrole user hacts.row)
      rcases hwritten with rfl | rfl
      · rw [AList.empty_union]
        exact .refl _ _
      · apply respectsOthers_of_catalog rfl
        intro p product' heq hp
        obtain rfl := Key.product.inj heq
        rw [hrow, Option.some.injEq] at hp
        exact hp ▸ hseller
  | createPromoCode id _ hwritten =>
      subst hwritten
      apply respectsOthers_of_catalog rfl
      intro p product heq _
      cases heq
  | createOrder id order items huser _ _ _ hfresh horder _ hothers =>
      obtain ⟨_, _, _, hwrite⟩ := heffect.orderWrite rfl
      apply hwrite.respectsOthers (hledger rfl) hothers
      · intro o ho
        exact absurd (mem_of_lookup ho) hfresh
      · exact ⟨_, RowStore.lookup_union_of_some horder, huser.trans hsubject⟩
  | updateOrder user order assigned items hacts hrow howner _ _ _ _ _ horder _ _ hothers =>
      obtain rfl : _ = u := hsubject
      obtain ⟨_, _, _, hwrite⟩ := heffect.orderWrite rfl
      have huser := hown hacts.row howner
      apply hwrite.respectsOthers (hledger rfl) hothers
      · intro o ho
        rw [hrow, Option.some.injEq] at ho
        exact ho ▸ huser
      · refine ⟨assignOrder order assigned order, ?_, ?_⟩
        · rw [RowStore.lookup_union_or, hrow, horder]
        · rw [assignOrder_userID, huser]
  | cancelOrder user order hacts hrow howner _ horder _ hothers =>
      obtain rfl : _ = u := hsubject
      obtain ⟨_, _, _, hwrite⟩ := heffect.orderWrite rfl
      have huser := hown hacts.row howner
      apply hwrite.respectsOthers (hledger rfl) hothers
      · intro o ho
        rw [hrow, Option.some.injEq] at ho
        exact ho ▸ huser
      · refine ⟨assignOrder order { order with status := .canceled } order, ?_, ?_⟩
        · rw [RowStore.lookup_union_or, hrow, horder]
        · rw [assignOrder_userID, huser]

/-- No request of this service writes a user. -/
theorem Commit.users (h : Commit rows written request) (subject : Uuid) :
    (written ∪ rows).lookup (.user subject) = rows.lookup (.user subject) := by
  cases h with
  | createProduct _ _ _ _ _ _ hwritten =>
      rw [hwritten]
      exact RowStore.lookup_single_union (by simp)
  | writeProduct _ _ _ _ _ _ _ _ _ _ hwritten =>
      rcases hwritten with rfl | rfl
      · rw [AList.empty_union]
      · exact RowStore.lookup_single_union (by simp)
  | createPromoCode _ _ hwritten =>
      rw [hwritten]
      exact RowStore.lookup_single_union (by simp)
  | createOrder _ _ _ _ _ _ _ _ _ _ hothers =>
      exact RowStore.lookup_union_of_none (hothers.users subject)
  | updateOrder _ _ _ _ _ _ _ _ _ _ _ _ _ _ _ hothers =>
      exact RowStore.lookup_union_of_none (hothers.users subject)
  | cancelOrder _ _ _ _ _ _ _ _ hothers =>
      exact RowStore.lookup_union_of_none (hothers.users subject)

/-! ## Complete requests -/

/-- What holds while a single request of `u` is served from `rows`. -/
structure Serving (settings : Settings) (request : Request) (rows : Rows) (u : Uuid)
    (pool : MarketPool) : Prop where
  sequential : Sequential Set.univ settings pool
  alone : ∀ thread ∈ pool.threads, thread.request = request
  users : ∀ subject, (rowsOf pool).lookup (.user subject) = rows.lookup (.user subject)
  respects : RespectsOthers u rows (rowsOf pool)

theorem Serving.next (h : Serving settings request rows u pool)
    (hsubject : request.subject = u)
    (hrole : ∀ user, rows.lookup (.user u) = some user → user.role ≠ .admin)
    (hevent : event.continues = true)
    (hnext : (service settings).next pool event = some final) :
    Serving settings request rows u final := by
  have hturn : oneByOne Set.univ pool event :=
    ⟨Pool.inTurn_of_continues hevent pool, fun _ _ => trivial⟩
  have halone : ∀ thread ∈ final.threads, thread.request = request := by
    intro thread hthread
    obtain ⟨j, hj⟩ := List.mem_iff_getElem?.mp hthread
    rcases Service.thread_of_next hnext hj with ⟨before, hbefore, heq⟩ | ⟨hstart, _⟩
    · rw [← heq]
      exact h.alone before (List.mem_of_getElem? hbefore)
    · rw [hstart] at hevent
      cases hevent
  rcases h.sequential.step hnext with hsame | ⟨i, request', hcommits, heffect, hcommit, hrows⟩
  · refine ⟨h.sequential.next hturn hnext, halone, ?_, ?_⟩
    · rw [hsame]
      exact h.users
    · rw [hsame]
      exact h.respects
  · obtain ⟨_, _, _, hruns⟩ := id hcommits
    obtain rfl : request' = request := h.alone _ (List.mem_of_getElem? hruns)
    rw [hrows] at heffect
    refine ⟨h.sequential.next hturn hnext, halone, fun subject => ?_, ?_⟩
    · rw [hrows, hcommit.users, h.users]
    · rw [hrows]
      apply h.respects.trans
      apply hcommit.respectsOthers heffect h.sequential.separate.holds.inv.2
        (h.sequential.separate.current hcommits) hsubject
      rw [h.users]
      exact hrole

theorem stored_of_holds (h : discipline.Holds (service settings) pool) : Stored (rowsOf pool) :=
  ⟨h.inv.2, h.inv.1.unique⟩

theorem Serves.serving (h : Serves settings request rows rows') (hrows : Stored rows)
    (hsubject : request.subject = u)
    (hrole : ∀ user, rows.lookup (.user u) = some user → user.role ≠ .admin) :
    ∃ pool, Serving settings request rows u pool ∧ rowsOf pool = rows' := by
  obtain ⟨events, pool, hrun, hevents, _, hfinal⟩ := h
  simp only [Service.run, Option.bind_eq_some_iff] at hrun
  obtain ⟨first, hnext, hrest⟩ := hrun
  have hstart : Sequential Set.univ settings (start rows) := sequential_start hrows trivial
  have hfirst : Serving settings request rows u first := by
    have hsequential := hstart.next ⟨rfl, fun _ _ => trivial⟩ hnext
    simp only [Service.next, Option.some.injEq] at hnext
    subst hnext
    refine ⟨hsequential, fun thread hthread => ?_, fun _ => rfl, .refl u rows⟩
    rw [List.mem_singleton.mp hthread]
  refine ⟨pool, ?_, hfinal⟩
  apply Service.run_invariant _ hfirst (Service.passes_of_all hevents first) hrest
  exact fun _ _ _ hpool hevent hnext => hpool.next hsubject hrole hevent hnext

theorem Serves.respectsOthers (h : Serves settings request rows rows') (hrows : Stored rows)
    (hsubject : request.subject = u)
    (hrole : ∀ user, rows.lookup (.user u) = some user → user.role ≠ .admin) :
    RespectsOthers u rows rows' := by
  obtain ⟨pool, hpool, rfl⟩ := h.serving hrows hsubject hrole
  exact hpool.respects

theorem Serves.stored (h : Serves settings request rows rows') (hrows : Stored rows) :
    Stored rows' := by
  obtain ⟨events, pool, hrun, _, _, rfl⟩ := h
  exact stored_of_holds (Discipline.holds_steps sound
    ((Service.Steps.of_run _ hrun).mono fun pool event _ => allowed_any pool event)
    (holds_start hrows))

/-! ## The other endpoints -/

/-- Nothing is written but new users. -/
structure Extends (rows rows' : Rows) : Prop where
  others : ∀ k, (∀ id, k ≠ .user id) → rows'.lookup k = rows.lookup k
  users : ∀ id user, rows.lookup (.user id) = some user → rows'.lookup (.user id) = some user

theorem Extends.refl (rows : Rows) : Extends rows rows := ⟨fun _ _ => rfl, fun _ _ h => h⟩

theorem Extends.insertUser (h : Extends rows rows') {user : User} (hfresh : .user id ∉ rows') :
    Extends rows (rows'.insert (.user id) user) where
  others k hk := by rw [AList.lookup_insert_ne (hk id), h.others k hk]
  users id' user' huser' := by
    have hold := h.users id' user' huser'
    rw [AList.lookup_insert_ne, hold]
    intro heq
    obtain rfl := Key.user.inj heq
    exact hfresh (mem_of_lookup hold)

theorem executeApi_extends {statement : ApiStatement} {choice : Choice}
    {answer : ApiAnswer statement} {s s' : ApiSession}
    (hexec : executeApi statement choice s = some (answer, s'))
    (hcurrent : Extends rows s.current.rows) (hcommitted : Extends rows s.committed.rows) :
    Extends rows s'.current.rows ∧ Extends rows s'.committed.rows := by
  have hsame : s' = s → Extends rows s'.current.rows ∧ Extends rows s'.committed.rows := by
    rintro rfl
    exact ⟨hcurrent, hcommitted⟩
  cases choice with
  | failure =>
      simp only [executeApi, Option.some.injEq, Prod.mk.injEq] at hexec
      exact hsame hexec.2.symm
  | proceed generated =>
      cases statement with
      | insertUser credentials role =>
          obtain ⟨id, _, hinsert⟩ := Option.bind_eq_some_iff.mp hexec
          split at hinsert
          · cases hinsert
          · rename_i hfresh
            split at hinsert
            · simp only [Option.some.injEq, Prod.mk.injEq] at hinsert
              exact hsame hinsert.2.symm
            · simp only [Option.some.injEq, Prod.mk.injEq] at hinsert
              obtain ⟨_, rfl⟩ := hinsert
              exact ⟨hcurrent.insertUser hfresh, hcommitted⟩
      | commit =>
          simp only [executeApi, proceedApi, Option.some.injEq, Prod.mk.injEq] at hexec
          obtain ⟨_, rfl⟩ := hexec
          exact ⟨hcurrent, hcurrent⟩
      | _ =>
          simp only [executeApi, proceedApi, Option.some.injEq, Prod.mk.injEq] at hexec
          exact hsame hexec.2.symm

theorem runs_extends {program : ApiHandler ApiResponse} {s s' : ApiSession}
    {result : Except HandlerError ApiResponse} (h : Program.Runs executeApi program s result s')
    (hcurrent : Extends rows s.current.rows) (hcommitted : Extends rows s.committed.rows) :
    Extends rows s'.committed.rows := by
  induction h with
  | ret value s => exact hcommitted
  | fail error s => exact hcommitted
  | step choice hexec _ ih =>
      obtain ⟨hcurrent', hcommitted'⟩ := executeApi_extends hexec hcurrent hcommitted
      exact ih hcurrent' hcommitted'

theorem Extends.respectsOthers (h : Extends rows rows') (u : Uuid) :
    RespectsOthers u rows rows' := by
  apply respectsOthers_of_same
  · exact fun id => ⟨h.others _ (by simp), h.others _ (by simp)⟩
  · intro p product hp _
    rw [h.others _ (by simp), hp]

theorem Extends.stored (h : Extends rows rows') (hrows : Stored rows) : Stored rows' where
  wellFormed := by
    have hsame : ∀ k, (∀ id, k ≠ .user id) → (k ∈ rows' ↔ k ∈ rows) :=
      fun k hk => mem_congr (h.others k hk)
    constructor
    · intro p product hp
      rw [h.others _ (by simp)] at hp
      exact hrows.wellFormed.stock p product hp
    · intro id item hitem
      rw [itemsOf_congr (h.others _ (by simp))] at hitem
      exact hrows.wellFormed.quantity id item hitem
    · intro id item hitem
      rw [itemsOf_congr (h.others _ (by simp))] at hitem
      rw [hsame _ (by simp)]
      exact hrows.wellFormed.product id item hitem
    · intro id hid
      rw [hsame _ (by simp)] at hid ⊢
      exact hrows.wellFormed.order id hid
    · intro id o q ho hq
      rw [h.others _ (by simp)] at ho
      rw [hsame _ (by simp)]
      exact hrows.wellFormed.promo id o q ho hq
  codes k k' row row' code hrow hrow' hcode hcode' := by
    cases k with
    | promo q =>
        cases k' with
        | promo q' =>
            rw [h.others _ (by simp)] at hrow hrow'
            exact hrows.codes _ _ row row' code hrow hrow' hcode hcode'
        | _ => cases hcode'
    | _ => cases hcode

/-! ## The API -/

variable {hashPassword : String → Except ApiError String} {tables₀ tables tables' : Tables}
  {apiRequest : ApiRequest}

theorem ApiStep.stored (h : ApiStep settings hashPassword apiRequest tables tables')
    (hrows : Stored tables.rows) : Stored tables'.rows := by
  cases h with
  | market hserves => exact hserves.stored hrows
  | handled _ hruns =>
      exact (runs_extends hruns (.refl tables.rows) (.refl tables.rows)).stored hrows

theorem ApiRun.stored (h : ApiRun settings hashPassword tables₀ tables)
    (hrows : Stored tables₀.rows) : Stored tables.rows := by
  induction h with
  | refl => exact hrows
  | tail _ hstep ih => exact hstep.stored ih

/-- After any requests, a request of a user who is no admin leaves alone the
    orders of others and the products of other sellers, except for their stock,
    which together with what the user's own orders hold stays the same; and it
    creates no order of another user. Neither does a registration. -/
theorem requests_respect_others (hrows : Stored tables₀.rows)
    (hrun : ApiRun settings hashPassword tables₀ tables)
    (hstep : ApiStep settings hashPassword apiRequest tables tables')
    (hsubject : apiRequest.subject = some u ∨ apiRequest.subject = none)
    (hrole : ∀ user, tables.rows.lookup (.user u) = some user → user.role ≠ .admin) :
    RespectsOthers u tables.rows tables'.rows := by
  cases hstep with
  | market hserves =>
      rcases hsubject with hsubject | hnone
      · exact hserves.respectsOthers (hrun.stored hrows) (Option.some.inj hsubject) hrole
      · cases hnone
  | handled _ hruns =>
      exact (runs_extends hruns (.refl tables.rows) (.refl tables.rows)).respectsOthers u

theorem requests_respect_others_sample : ∃ rows' : Rows,
    Serves ⟨5⟩ (.createOrder 2 (sampleOrder 10 (some "KETTLE"))) sampleRows rows' ∧
      RespectsOthers 2 sampleRows rows' ∧ stockOf rows' 10 = 3 ∧ heldBy rows' 2 10 = 2 := by
  obtain ⟨pool, hrun, hidle, hstock, hheld⟩ := Service.exists_run (fun pool : MarketPool =>
      pool.idle = true ∧ stockOf (rowsOf pool) 10 = 3 ∧ heldBy (rowsOf pool) 2 10 = 2)
    (show (((service ⟨5⟩).run (start sampleRows) (orderWithCode "KETTLE")).any _) = true by
      decide +kernel)
  have hserves : Serves ⟨5⟩ (.createOrder 2 (sampleOrder 10 (some "KETTLE"))) sampleRows
      (rowsOf pool) := ⟨_, pool, hrun, by decide +kernel, hidle, rfl⟩
  have hstep : ApiStep ⟨5⟩ Except.ok (.market (.createOrder 2 (sampleOrder 10 (some "KETTLE"))))
      ⟨sampleRows, ∅⟩ ⟨rowsOf pool, ∅⟩ := .market hserves
  have hrole : ∀ user : User, sampleRows.lookup (.user 2) = some user → user.role ≠ .admin := by
    intro user huser
    have hrow : sampleRows.lookup (.user 2) = some ⟨.user⟩ := by decide +kernel
    rw [hrow, Option.some.injEq] at huser
    rw [← huser]
    simp
  exact ⟨rowsOf pool, hserves, requests_respect_others (stored_of_check (by decide +kernel))
    (.refl _) hstep (Or.inl rfl) hrole, hstock, hheld⟩

end SoaHomework.Marketplace

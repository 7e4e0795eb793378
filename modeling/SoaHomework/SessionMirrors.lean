import SoaHomework.DrawnKeys
import SoaHomework.SessionFlushes

/-!
# Sessions beside statements

A part of an order handler on its session is compared with the same part of the handler
that only sends statements. The two go through their checks together, with the objects
of the session where the statements have products in memory (`Alike`). Then the flush and
the commit of the session do what the statements do
(`mirrors_inTransactionContext`).
-/

namespace SoaHomework.OrderSessions

open StatementProgram FallibleState OrmSession Marketplace

/-! ## Looking alike -/

/-- The session is over the rows `rows`, which it has not changed. -/
structure Over (rows : Rows) (s : Session Key Row) : Prop where
  database : s.database = rows
  current : s.current.rows = rows
  active : s.transaction.isSome = true
  added : ∀ k ∈ s.added, k ∉ rows

/-- A part of a handler that only looks at the rows, and the same part on the session. -/
inductive Alike {α β : Type} (draw : Draw) (rows : Rows) (s : Session Key Row)
    (m : SessionHandler α) (p : Handler β) (post : α → β → Session Key Row → Prop) : Prop where
  | returns (value : α) (result : β) (s' : Session Key Row) (hm : run m s = (.ok value, s'))
      (hp : p.alone (onDraft draw) ⟨rows, ∅⟩ = some (.ok result, ⟨rows, ∅⟩))
      (hpost : post value result s')
  | raises (error : HandlerError) (s' : Session Key Row) (hm : run m s = (.error error, s'))
      (hs' : s'.database = rows)
      (hp : p.alone (onDraft draw) ⟨rows, ∅⟩ = some (.error error, ⟨rows, ∅⟩))

abbrev Outcome := Option (Except HandlerError Response × Draft)

/-- The outcome of a handler that has the database to itself. -/
abbrev outcomeOf (draw : Draw) (rows : Rows) (p : Handler Response) : Outcome :=
  p.alone (onDraft draw) ⟨rows, ∅⟩

/-- On the session the handler raises the error of `outcome`, or it gets where `post`
    says. -/
inductive Mirrors {α : Type} (rows : Rows) (s : Session Key Row) (m : SessionHandler α)
    (outcome : Outcome) (post : α → Session Key Row → Outcome → Prop) : Prop where
  | returns (value : α) (s' : Session Key Row) (hm : run m s = (.ok value, s'))
      (hpost : post value s' outcome)
  | raises (error : HandlerError) (s' : Session Key Row) (t : Draft)
      (hm : run m s = (.error error, s')) (hs' : s'.database = rows)
      (houtcome : outcome = some (.error error, t)) (ht : t.rows = rows)

variable {α β γ : Type} {draw : Draw} {rows : Rows} {id : Uuid} {s s' : Session Key Row}

section Rules

variable {m : SessionHandler α} {p : Handler β} {mid : α → β → Session Key Row → Prop}

theorem Alike.bind {δ : Type} {f : α → SessionHandler γ} {g : β → Handler δ}
    {post : γ → δ → Session Key Row → Prop} (h : Alike draw rows s m p mid)
    (hnext : ∀ value result s', mid value result s' →
      Alike draw rows s' (f value) (g result) post) :
    Alike draw rows s (m >>= f) (p >>= g) post := by
  cases h with
  | raises error s' hm hs' hp =>
      refine .raises error s' ?_ hs' ?_
      · simp only [run_bind, hm]
      · simp only [Program.alone_bind, hp]
  | returns value result s' hm hp hmid =>
      cases hnext value result s' hmid with
      | returns value' result' s'' hm' hp' hpost =>
          refine .returns value' result' s'' ?_ ?_ hpost
          · simp only [run_bind, hm, hm']
          · simp only [Program.alone_bind, hp, hp']
      | raises error s'' hm' hs'' hp' =>
          refine .raises error s'' ?_ hs'' ?_
          · simp only [run_bind, hm, hm']
          · simp only [Program.alone_bind, hp, hp']

theorem Alike.mono {post : α → β → Session Key Row → Prop} (h : Alike draw rows s m p mid)
    (hmono : ∀ value result s', mid value result s' → post value result s') :
    Alike draw rows s m p post := by
  cases h with
  | returns value result s' hm hp hmid =>
      exact .returns value result s' hm hp (hmono value result s' hmid)
  | raises error s' hm hs' hp => exact .raises error s' hm hs' hp

theorem Mirrors.bind {f : α → SessionHandler γ} {next : β → Handler Response}
    {post : γ → Session Key Row → Outcome → Prop} (h : Alike draw rows s m p mid)
    (hnext : ∀ value result s', mid value result s' →
      Mirrors rows s' (f value) (outcomeOf draw rows (next result)) post) :
    Mirrors rows s (m >>= f) (outcomeOf draw rows (p >>= next)) post := by
  cases h with
  | raises error s' hm hs' hp =>
      refine .raises error s' ⟨rows, ∅⟩ ?_ hs' ?_ rfl
      · simp only [run_bind, hm]
      · simp only [outcomeOf, Program.alone_bind, hp]
  | returns value result s' hm hp hmid =>
      have houtcome : outcomeOf draw rows (p >>= next) = outcomeOf draw rows (next result) := by
        simp only [outcomeOf, Program.alone_bind, hp]
      rw [houtcome]
      cases hnext value result s' hmid with
      | returns value' s'' hm' hpost =>
          refine .returns value' s'' ?_ hpost
          simp only [run_bind, hm, hm']
      | raises error s'' t hm' hs'' hrefused ht =>
          refine .raises error s'' t ?_ hs'' hrefused ht
          simp only [run_bind, hm, hm']

/-- The session alone goes on. -/
theorem Mirrors.session {f : α → SessionHandler γ} {value : α} {outcome : Outcome}
    {post : γ → Session Key Row → Outcome → Prop} (hm : run m s = (.ok value, s'))
    (h : Mirrors rows s' (f value) outcome post) : Mirrors rows s (m >>= f) outcome post := by
  cases h with
  | returns value' s'' hm' hpost =>
      refine .returns value' s'' ?_ hpost
      simp only [run_bind, hm, hm']
  | raises error s'' t hm' hs'' houtcome ht =>
      refine .raises error s'' t ?_ hs'' houtcome ht
      simp only [run_bind, hm, hm']

theorem Mirrors.now {m : SessionHandler α} {next : Int → Handler Response}
    {post : α → Session Key Row → Outcome → Prop}
    (h : Mirrors rows s m (outcomeOf draw rows (next draw.clock)) post) :
    Mirrors rows s m (outcomeOf draw rows (query .now >>= next)) post := by
  have hnow : onDraft draw .now ⟨rows, ∅⟩ = some (.ok draw.clock, ⟨rows, ∅⟩) := rfl
  rwa [outcomeOf, alone_query hnow]

/-- The statements alone go on. -/
theorem Mirrors.read {m : SessionHandler α} {statement : Statement} {value : Result statement}
    {next : Result statement → Handler Response} {post : α → Session Key Row → Outcome → Prop}
    (hread : answerOf rows statement = some value)
    (h : Mirrors rows s m (outcomeOf draw rows (next value)) post) :
    Mirrors rows s m (outcomeOf draw rows (query statement >>= next)) post := by
  have hseen : answerOf (⟨rows, ∅⟩ : Draft).seen statement = some value := by
    rwa [Draft.seen, AList.empty_union]
  rwa [outcomeOf, alone_query (effect_read hseen)]

theorem Alike.ret {value : α} {result : β} {post : α → β → Session Key Row → Prop}
    (h : post value result s) : Alike draw rows s (pure value) (.ret result) post :=
  .returns value result s rfl rfl h

theorem Over.run_select (hs : Over rows s) (f : Rows → α) :
    run (select f : SessionHandler α) s = (.ok (f rows), s) := by
  rw [OrmSession.run_select, hs.current, Session.begun_of_active hs.active]

/-- A query. -/
theorem Over.select (hs : Over rows s) {f : Rows → α} {statement : Statement}
    {value : Result statement} (hread : answerOf rows statement = some value) :
    Alike draw rows s (OrmSession.select f) (query statement)
      fun a b s' => a = f rows ∧ b = value ∧ s = s' := by
  have hseen : answerOf (⟨rows, ∅⟩ : Draft).seen statement = some value := by
    rwa [Draft.seen, AList.empty_union]
  exact .returns _ _ s (hs.run_select f) (returns_query.mpr (effect_read hseen)) ⟨rfl, rfl, rfl⟩

theorem Over.raiseIf (hs : Over rows s) (failed : Bool) (error : HandlerError) :
    Alike draw rows s (FallibleState.raiseIf failed error) (Program.raiseIf failed error)
      fun _ _ s' => failed = false ∧ s = s' := by
  cases failed with
  | false => exact .returns () () s rfl rfl ⟨rfl, rfl⟩
  | true => exact .raises error s rfl hs.database rfl

theorem Over.require (hs : Over rows s) (error : ApiError) (row : Option α) :
    Alike draw rows s (require error row) (Marketplace.require error row)
      fun a b s' => row = some a ∧ a = b ∧ s = s' := by
  cases row with
  | none => exact .raises _ s rfl hs.database rfl
  | some value => exact .returns value value s rfl rfl ⟨rfl, rfl, rfl⟩

theorem Over.returnApi (hs : Over rows s) (outcome : Except ApiError α) :
    Alike draw rows s (returnApi outcome) (Marketplace.returnApi outcome)
      fun a b s' => outcome = .ok a ∧ a = b ∧ s = s' := by
  cases outcome with
  | error error => exact .raises _ s rfl hs.database rfl
  | ok value => exact .returns value value s rfl rfl ⟨rfl, rfl, rfl⟩

end Rules

/-! ## Stocks in memory -/

theorem Over.assign (hs : Over rows s) (k : Key) (row : Row k) : Over rows (s.assign k row) :=
  ⟨hs.database, hs.current, hs.active, hs.added⟩

theorem unassigned_assign (s : Session Key Row) (k : Key) (row : Row k) {n : Nat}
    (hne : tableOf k ≠ n) : Unassigned s.objects (s.assign k row).objects n := by
  rw [Session.objects_assign]
  exact unassigned_insert _ _ _ hne

theorem Unassigned.assigned {k : Key} (h : Unassigned rows s.objects (tableOf k)) (row : Row k) :
    Assigned rows (s.assign k row).objects k row := by
  rw [Session.objects_assign]
  exact h.assign row

/-- Of the objects of the session only stocks have moved. -/
structure Stocked (rows : Rows) (moved : Uuid → Int) (s : Session Key Row) : Prop
    extends Over rows s where
  products : StocksMoved rows s.objects moved
  others : ∀ k, 0 < tableOf k → s.objects.lookup k = rows.lookup k

variable {moved : Uuid → Int} {ids : List Uuid} {products : ProductMap}

theorem Over.stocked (hs : Over rows s) (hobjects : s.objects = rows) :
    Stocked rows (fun _ => 0) s := by
  refine ⟨hs, fun p => ?_, fun k _ => by rw [hobjects]⟩
  rw [hobjects]
  cases rows.lookup (.product p) with
  | none => rfl
  | some product => exact congrArg some (Product.addStock_zero product).symm

theorem loaded_productMap (rows : Rows) (ids : List Uuid) :
    Loaded rows ids (fun _ => 0) (productMap rows ids) := by
  refine ⟨fun p => ?_, fun p hp => absurd rfl hp⟩
  simp

/-- Stocks that move only where there is no product. -/
theorem Stocked.congr {moved' : Uuid → Int} (h : Stocked rows moved s)
    (hsame : ∀ p, moved' p = moved p ∨ rows.lookup (.product p) = none) :
    Stocked rows moved' s := by
  refine ⟨h.toOver, fun p => ?_, h.others⟩
  rw [h.products p]
  rcases hsame p with heq | hnone
  · rw [heq]
  · rw [hnone]
    rfl

theorem run_addStock (h : Stocked rows moved s) (id : Uuid) (change : Int) :
    ∃ s', run (addStock id change) s = (.ok (), s') ∧
      Stocked rows (fun p => moved p + if id = p then change else 0) s' := by
  unfold addStock
  rw [run_bind, run_inspect]
  have hid := h.products id
  cases hrow : s.objects.lookup (.product id) with
  | none =>
      rw [hrow] at hid
      refine ⟨s, rfl, h.congr fun p => ?_⟩
      by_cases hp : id = p
      · subst hp
        exact Or.inr (Option.map_eq_none_iff.mp hid.symm)
      · exact Or.inl (by simp [hp])
  | some product =>
      rw [hrow] at hid
      obtain ⟨row, hproduct, hmoved⟩ := Option.map_eq_some_iff.mp hid.symm
      refine ⟨_, rfl, h.toOver.assign _ _, fun p => ?_, fun k hk => ?_⟩
      · rw [Session.objects_assign]
        by_cases hp : id = p
        · subst hp
          rw [AList.lookup_insert, hproduct, Option.map_some, if_pos rfl,
            ← Product.addStock_addStock, hmoved]
          rfl
        · have hne : Key.product p ≠ .product id := fun heq => hp (Key.product.inj heq).symm
          rw [AList.lookup_insert_ne hne, h.products p, if_neg hp]
          simp only [Int.add_zero]
      · have hne : k ≠ .product id := by
          rintro rfl
          simp [tableOf] at hk
        rw [Session.objects_assign, AList.lookup_insert_ne hne, h.others k hk]

/-- Stocks that move line by line. -/
theorem run_addLines (h : Stocked rows moved s) (lines : List (Uuid × Int)) :
    ∃ s', run (lines.forM fun line => addStock line.1 line.2) s = (.ok (), s') ∧
      Stocked rows (fun p => moved p + quantityOf p lines) s' := by
  induction lines generalizing moved s with
  | nil => exact ⟨s, rfl, h.congr fun p => Or.inl (Int.add_zero _)⟩
  | cons line lines ih =>
      obtain ⟨s₁, hrun, h₁⟩ := run_addStock h line.1 line.2
      obtain ⟨s₂, hrest, h₂⟩ := ih h₁
      refine ⟨s₂, ?_, h₂.congr fun p => Or.inl ?_⟩
      · change run (addStock line.1 line.2 >>= fun _ => lines.forM _) s = _
        simp only [run_bind, hrun, hrest]
      · rw [quantityOf_cons, Int.add_assoc]

theorem run_deduct (h : Stocked rows moved s) (requested : List (Uuid × Int)) :
    ∃ s', run (requested.forM fun line => addStock line.1 (-line.2)) s = (.ok (), s') ∧
      Stocked rows (fun p => moved p - quantityOf p requested) s' := by
  obtain ⟨s', hrun, hs'⟩ := run_addLines h (requested.map fun line => (line.1, -line.2))
  rw [List.forM_eq_forM, List.forM_map, ← List.forM_eq_forM] at hrun
  refine ⟨s', hrun, hs'.congr fun p => Or.inl ?_⟩
  rw [quantityOf_neg]
  omega

/-- The items of products that are not loaded have no product. -/
theorem run_giveBack (h : Stocked rows moved s) {items : List OrderItem}
    (hids : ∀ item ∈ items, item.productID ∈ ids) :
    ∃ s', run (giveBack (productMap rows ids).keys items) s = (.ok (), s') ∧
      Stocked rows (fun p => moved p + quantityOf p (itemLines items)) s' := by
  induction items generalizing moved s with
  | nil => exact ⟨s, rfl, h.congr fun p => Or.inl (Int.add_zero _)⟩
  | cons item items ih =>
      have hfirst : ∃ s₁, run (if item.productID ∈ (productMap rows ids).keys then
            addStock item.productID item.quantity else pure ()) s = (.ok (), s₁) ∧
          Stocked rows (fun p => moved p + if item.productID = p then item.quantity else 0) s₁ := by
        by_cases hmem : item.productID ∈ (productMap rows ids).keys
        · rw [if_pos hmem]
          exact run_addStock h _ _
        · rw [if_neg hmem]
          refine ⟨s, rfl, h.congr fun p => ?_⟩
          by_cases hp : item.productID = p
          · subst hp
            have hnone := AList.lookup_eq_none.mpr hmem
            rw [lookup_productMap, if_pos (hids item List.mem_cons_self)] at hnone
            exact Or.inr hnone
          · exact Or.inl (by simp [hp])
      obtain ⟨s₁, hrun, h₁⟩ := hfirst
      obtain ⟨s₂, hrest, h₂⟩ := ih h₁ fun item' hmem => hids item' (List.mem_cons_of_mem _ hmem)
      refine ⟨s₂, ?_, h₂.congr fun p => Or.inl ?_⟩
      · change run (_ >>= fun _ => giveBack (productMap rows ids).keys items) s = _
        simp only [run_bind, hrun, hrest]
      · simp only [itemLines, List.map_cons, quantityOf_cons, Int.add_assoc]

theorem Loaded.giveBack (h : Loaded rows ids moved products) {items : List OrderItem}
    (hids : ∀ item ∈ items, item.productID ∈ ids) :
    Loaded rows ids (fun p => moved p + quantityOf p (itemLines items))
      (Marketplace.giveBack products items) := by
  refine ⟨fun p => ?_, fun p hp => ?_⟩
  · rw [lookup_giveBack, h.products p, Option.map_map]
    exact congrArg (Option.map · _) (funext fun product => Product.addStock_addStock _ _ _)
  · by_contra hmem
    have hmoved : moved p = 0 := not_not.mp (mt (h.ids p) hmem)
    have hitems : quantityOf p (itemLines items) = 0 := by
      apply quantityOf_eq_zero
      intro hp'
      rw [itemLines, List.map_map] at hp'
      obtain ⟨item, hitem, rfl⟩ := List.mem_map.mp hp'
      exact hmem (hids item hitem)
    simp only [hmoved, hitems] at hp
    exact hp rfl

theorem Loaded.deduct (h : Loaded rows ids moved products) {requested : List (Uuid × Int)}
    (hids : ∀ p ∈ requested.map Prod.fst, p ∈ ids) :
    Loaded rows ids (fun p => moved p - quantityOf p requested)
      (Marketplace.deduct products requested) := by
  refine ⟨fun p => ?_, fun p hp => ?_⟩
  · rw [lookup_deduct, h.products p, Option.map_map]
    exact congrArg (Option.map · _) (funext fun product => Product.addStock_addStock _ _ _)
  · by_contra hmem
    have hmoved : moved p = 0 := not_not.mp (mt (h.ids p) hmem)
    simp only [hmoved, quantityOf_eq_zero (mt (hids p) hmem)] at hp
    exact hp rfl

/-! ## Placing -/

section Congruence

variable {products' : ProductMap}

theorem checkProducts_congr (h : ∀ p, products'.lookup p = products.lookup p)
    (requested : List (Uuid × Int)) :
    checkProducts products' requested = checkProducts products requested := by
  induction requested with
  | nil => rfl
  | cons line requested ih => simp only [checkProducts, h, ih]

theorem shortages_congr (h : ∀ p, products'.lookup p = products.lookup p)
    (requested : List (Uuid × Int)) :
    shortages products' requested = shortages products requested := by
  simp only [shortages, h]

theorem priceItems_congr (h : ∀ p, (products'.lookup p).map Product.price =
      (products.lookup p).map Product.price) (items : List OrderItemCreate) :
    priceItems products' items = priceItems products items := by
  apply List.filterMap_congr
  intro item _
  have hprice := congrArg (Option.map fun price : ℚ =>
    (⟨item.productID, item.quantity, price⟩ : ItemLine)) (h item.productID)
  rwa [Option.map_map, Option.map_map] at hprice

end Congruence

/-- The session has the same products in memory. -/
theorem Stocked.lookup_products (h : Stocked rows moved s)
    (hloaded : Loaded rows ids moved products) (p : Uuid) :
    (productMap s.objects (productMap rows ids).keys).lookup p = products.lookup p := by
  rw [lookup_productMap, h.products p, hloaded.products p]
  split
  · rename_i hmem
    rw [lookup_productMap]
    split
    · rfl
    · rename_i hp
      have hsome := AList.lookup_isSome.mpr (AList.mem_keys.mpr hmem)
      rw [lookup_productMap, if_neg hp] at hsome
      cases hsome
  · rename_i hmem
    rw [AList.lookup_eq_none.mpr (mt AList.mem_keys.mp hmem)]
    rfl

theorem Stocked.placeItems (h : Stocked rows moved s) (hloaded : Loaded rows ids moved products)
    {items : List OrderItemCreate}
    (hids : ∀ p ∈ (requestedTotals items).map Prod.fst, p ∈ ids) :
    Alike draw rows s (OrderSessions.placeItems (productMap rows ids).keys items)
      (Marketplace.returnApi (Marketplace.placeItems products items))
      fun lines placement s' => lines = placement.lines ∧ lines.length = items.length ∧
        Stocked rows (fun p => moved p - quantityOf p (requestedTotals items)) s' ∧
        Loaded rows ids (fun p => moved p - quantityOf p (requestedTotals items))
          placement.products := by
  have hsame := h.lookup_products hloaded
  have hcheck := checkProducts_congr hsame (requestedTotals items)
  have hshort := shortages_congr hsame (requestedTotals items)
  cases hchecked : checkProducts products (requestedTotals items) with
  | error error =>
      have hplace : Marketplace.placeItems products items = .error error := by
        simp only [Marketplace.placeItems, hchecked]
        rfl
      rw [hplace]
      refine .raises (.api error) s ?_ h.database rfl
      rw [OrderSessions.placeItems, run_bind, run_inspect]
      simp only [hcheck, hchecked, run_bind, returnApi, raiseApi, run_throw]
  | ok _ =>
      cases hempty : (shortages products (requestedTotals items)).isEmpty with
      | false =>
          have hplace : Marketplace.placeItems products items =
              .error (.insufficientStock (shortages products (requestedTotals items))) := by
            simp only [Marketplace.placeItems, hchecked]
            simp [hempty]
            rfl
          rw [hplace]
          refine .raises _ s ?_ h.database rfl
          rw [OrderSessions.placeItems, run_bind, run_inspect]
          simp only [hcheck, hchecked, hshort, hempty, run_bind, returnApi, run_pure, run_raiseIf,
            Bool.not_false, if_true]
      | true =>
          have hplace : Marketplace.placeItems products items =
              .ok ⟨Marketplace.deduct products (requestedTotals items),
                priceItems products items⟩ := by
            simp only [Marketplace.placeItems, hchecked]
            simp [hempty]
          obtain ⟨s', hrun, hs'⟩ := run_deduct h (requestedTotals items)
          have hafter := hloaded.deduct hids
          have hprices : priceItems (productMap s'.objects (productMap rows ids).keys) items =
              priceItems products items := by
            apply priceItems_congr
            intro p
            rw [hs'.lookup_products hafter, lookup_deduct, Option.map_map]
            rfl
          rw [hplace]
          refine .returns (priceItems products items) _ s' ?_ rfl
            ⟨rfl, length_of_placeItems hplace, hs', hafter⟩
          rw [OrderSessions.placeItems, run_bind, run_inspect]
          simp only [hcheck, hchecked, hshort, hempty, run_bind, returnApi, run_pure, run_raiseIf,
            Bool.not_true, Bool.false_eq_true, if_false, hrun, run_inspect, hprices]

/-! ## The checks -/

section Checks

variable {subject : Uuid}

theorem Alike.now {m : SessionHandler α} {next : Int → Handler β}
    {post : α → β → Session Key Row → Prop} (h : Alike draw rows s m (next draw.clock) post) :
    Alike draw rows s m (query .now >>= next) post := by
  have hnow : (query .now >>= next).alone (onDraft draw) ⟨rows, ∅⟩ =
      (next draw.clock).alone (onDraft draw) ⟨rows, ∅⟩ := alone_query rfl
  cases h with
  | returns value result s' hm hp hpost => exact .returns value result s' hm (hnow.trans hp) hpost
  | raises error s' hm hs' hp => exact .raises error s' hm hs' (hnow.trans hp)

theorem Over.requireRoles (hs : Over rows s) (roles : List UserRole) :
    Alike draw rows s (requireRoles roles subject) (Marketplace.requireRoles roles subject)
      fun user user' s' => user = user' ∧ s = s' := by
  have hread : answerOf rows (.selectUser subject) = some (rows.lookup (.user subject)) := rfl
  refine (hs.select hread).bind ?_
  rintro _ _ _ ⟨rfl, rfl, rfl⟩
  refine (hs.require _ _).bind ?_
  rintro user _ _ ⟨_, rfl, rfl⟩
  by_cases hrole : user.role ∈ roles
  · rw [decide_eq_false (not_not.mpr hrole), if_pos hrole]
    exact .returns user user s rfl rfl ⟨rfl, rfl⟩
  · rw [decide_eq_true hrole, if_neg hrole]
    exact .raises _ s rfl hs.database rfl

theorem Over.checkRateLimit (hs : Over rows s) (settings : Settings)
    (operationType : OperationType) :
    Alike draw rows s (checkRateLimit settings (Draws.of draw) subject operationType)
      (Marketplace.checkRateLimit settings subject operationType) fun _ _ s' => s = s' := by
  have hread : answerOf rows (.selectLastOperation subject operationType) =
      some (lastOperation rows subject operationType) := rfl
  refine (hs.select hread).bind ?_
  rintro _ _ _ ⟨rfl, rfl, rfl⟩
  cases lastOperation rows subject operationType with
  | none => exact .returns () () s rfl rfl rfl
  | some createdAt =>
      apply Alike.now
      exact (hs.raiseIf _ _).mono fun _ _ _ h => h.2

theorem Over.loadOrder (hs : Over rows s) (user : User) :
    Alike draw rows s (loadOrder subject user id) (Marketplace.loadOrder subject user id)
      fun order order' s' => rows.lookup (.order id) = some order ∧ order = order' ∧ s = s' := by
  have hread : answerOf rows (.selectOrder id) = some (rows.lookup (.order id)) := rfl
  refine (hs.select hread).bind ?_
  rintro _ _ _ ⟨rfl, rfl, rfl⟩
  refine (hs.require _ _).bind ?_
  rintro order _ _ ⟨hrow, rfl, rfl⟩
  refine (hs.raiseIf _ _).bind ?_
  rintro _ _ _ ⟨_, rfl⟩
  exact Alike.ret ⟨hrow, rfl, rfl⟩

/-- The promo code of a new order. -/
theorem Over.newOrder (hs : Over rows s) (code : String) (totalAmount : ℚ) :
    Alike draw rows s (newOrder (Draws.of draw) subject totalAmount (some code))
      (applyPromo code totalAmount) fun order applied s' =>
        rows.lookup (.promo applied.1) = some applied.2.1 ∧
          order = ⟨subject, .created, some applied.1, totalAmount - applied.2.2, applied.2.2⟩ ∧
            s' = s.assign (.promo applied.1)
              (applied.2.1.withUses (applied.2.1.currentUses + 1)) := by
  have hread : answerOf rows (.selectPromoByCode code) = some (promoByCode rows code) := rfl
  refine (hs.select hread).bind ?_
  rintro _ _ _ ⟨rfl, rfl, rfl⟩
  refine (hs.require _ _).bind ?_
  rintro ⟨promoID, promo⟩ _ _ ⟨hfound, rfl, rfl⟩
  apply Alike.now
  refine (hs.returnApi _).bind ?_
  rintro _ _ _ ⟨_, rfl, rfl⟩
  refine (hs.returnApi _).bind ?_
  rintro discount _ _ ⟨_, rfl, rfl⟩
  exact .returns _ (promoID, promo, discount) _ rfl rfl ⟨promoByCode_some hfound, rfl, rfl⟩

end Checks

/-! ## The context -/

/-- The objects of the session are what the statements that are left write, and the order
    is answered. -/
structure Ready (rows : Rows) (id : Uuid) (s : Session Key Row) (outcome : Outcome) : Prop
    extends Over rows s where
  flushed : (∀ m, 0 ≤ m → Fit s.objects m) → ∃ response t,
    outcome = some (.ok response, t) ∧ Flushed rows s.objects id response t
  refused : ¬ (∀ m, 0 ≤ m → Fit s.objects m) → ∃ t,
    outcome = some (.error (.db .outOfRange), t) ∧ t.rows = rows

theorem Finishes.ready {p : Handler Response} (h : Finishes draw rows s.objects id 0 p)
    (hs : Over rows s) : Ready rows id s (outcomeOf draw rows p) := by
  have hstart : Written rows s.objects 0 ⟨rows, ∅⟩ := by
    refine ⟨rfl, fun k hk => absurd hk (Nat.not_lt_zero _), fun k _ => ?_⟩
    rw [Draft.seen, AList.empty_union]
  exact ⟨hs, fun hfits => h.flushed hfits _ hstart, fun hfits => h.refused hfits _ hstart⟩

/-- The session answers as the statements do, and both leave the same rows. -/
def Answers (response : OrderResponse) (s : Session Key Row) (outcome : Outcome) : Prop :=
  ∃ t, outcome = some (.ok (.order response), t) ∧
    ∀ k, s.database.lookup k = t.rows.lookup k

/-- The objects fit if those that are pending do. -/
theorem Over.fit_iff (hs : Over rows s) (hheld : Held rows) :
    (∀ m, 0 ≤ m → Fit s.objects m) ↔
      ∀ k row, s.pending.lookup k = some row → schema.fits k row = true := by
  have hobjects : ∀ k, s.objects.lookup k = (s.pending.lookup k).or (rows.lookup k) := by
    intro k
    rw [Session.objects, hs.current]
    cases hrow : s.pending.lookup k with
    | none => exact AList.lookup_union_right (AList.lookup_eq_none.mp hrow)
    | some row =>
        rw [AList.lookup_union_left (AList.lookup_isSome.mp (by rw [hrow]; rfl)), hrow]
        rfl
  constructor
  · intro h k row hrow
    apply h (tableOf k) (Nat.zero_le _) k row rfl
    rw [hobjects, hrow]
    rfl
  · intro h m _ k row _ hrow
    rw [hobjects] at hrow
    cases hpending : s.pending.lookup k with
    | none =>
        rw [hpending] at hrow
        exact (hheld k row hrow).2
    | some row' =>
        rw [hpending] at hrow
        cases hrow
        exact h k _ hpending

theorem Over.lookup_flushed (hs : Over rows s) (hheld : Held rows) (k : Key) :
    (schema.write s.pending s.current.rows).lookup k =
      (s.objects.lookup k).map (schema.stored k) := by
  rw [Schema.lookup_write, Session.objects, hs.current]
  cases hrow : s.pending.lookup k with
  | none =>
      rw [AList.lookup_union_right (AList.lookup_eq_none.mp hrow), hheld.stored]
      rfl
  | some row =>
      rw [AList.lookup_union_left (AList.lookup_isSome.mp (by rw [hrow]; rfl)), hrow]
      rfl

section Context

variable {body : SessionHandler α} {s₁ s₂ : Session Key Row} {value : α}

theorem run_inTransactionContext (hs : s.transaction.isSome = true)
    (hwithin : run (within (beginNested schema) body) s = (.ok value, s₁))
    (hs₁ : s₁.transaction.isSome = true) (hcommit : run (commit schema) s₁ = (.ok (), s₂)) :
    run (inTransactionContext body) s = (.ok value, s₂) := by
  simp only [inTransactionContext, inTransaction, run_bind, run_observe, hs, hs₁, if_true, hwithin,
    Bool.and_self, hcommit, run_pure]

theorem run_inTransactionContext_error (hs : s.transaction.isSome = true) {error : HandlerError}
    (hwithin : run (within (beginNested schema) body) s = (.error error, s₁)) :
    run (inTransactionContext body) s = (.error error, s₁) := by
  simp only [inTransactionContext, inTransaction, run_bind, run_observe, hs, if_true, hwithin]

theorem run_enter (hs : Over rows s) (hpending : s.pending = ∅) :
    run (beginNested schema).enter s = (.ok (), (s.flushed schema).withSavepoint) := by
  have hflush : run (flush schema) s = (.ok (), s.flushed schema) := by
    apply run_flush
    · rw [hs.current]
      exact hs.added
    · intro k row hrow
      rw [hpending] at hrow
      cases hrow
  simp only [beginNested, run_bind, hflush, run_change]

theorem Over.entered (hs : Over rows s) (hpending : s.pending = ∅) :
    Over rows (s.flushed schema).withSavepoint ∧
      (s.flushed schema).withSavepoint.objects = rows := by
  have hcurrent : (s.flushed schema).withSavepoint.current.rows = rows := by
    change schema.write s.pending s.current.rows = rows
    rw [hpending]
    exact hs.current
  refine ⟨⟨hs.database, hcurrent, rfl, ?_⟩, ?_⟩
  · intro k hk
    cases hk
  · rw [Session.objects, hcurrent]
    exact AList.empty_union

/-- The session after the savepoint, the commit and the answer. -/
def settled (s : Session Key Row) : Session Key Row :=
  ((s.flushed schema).released.flushed schema).committed

theorem run_leave (hs : Over rows s)
    (hfits : ∀ k row, s.pending.lookup k = some row → schema.fits k row = true) :
    run (beginNested schema).leave s = (.ok (), (s.flushed schema).released) ∧
      run (commit schema) (s.flushed schema).released = (.ok (), settled s) := by
  have hflush : run (flush schema) s = (.ok (), s.flushed schema) := by
    apply run_flush _ hfits
    rw [hs.current]
    exact hs.added
  have hagain : run (flush schema) (s.flushed schema).released =
      (.ok (), (s.flushed schema).released.flushed schema) := by
    apply run_flush
    · intro k hk
      cases hk
    · intro k row hrow
      cases hrow
  constructor
  · simp only [beginNested, run_bind, hflush, run_change]
  · simp only [commit, run_bind, hagain, run_change]
    rfl

theorem run_leave_refused (hs : Over rows s)
    (hfits : ¬ ∀ k row, s.pending.lookup k = some row → schema.fits k row = true) :
    run (beginNested schema).leave s = (.error (.db .outOfRange), s) := by
  have hflush : run (flush schema) s = (.error schema.outOfRange, s) := by
    apply run_flush_refused _ hfits
    rw [hs.current]
    exact hs.added
  simp only [beginNested, run_bind, hflush]
  rfl

theorem run_orderResponse {order : Order}
    (horder : s.current.rows.lookup (.order id) = some order) :
    run (orderResponse id) s = (.ok ⟨id, order, itemsOf s.current.rows id⟩, s.begun) := by
  simp only [orderResponse, run_bind, run_select, horder]
  rfl

/-- The body goes through the checks of the handler, and the flush and the commit do what
    its statements do. -/
theorem mirrors_inTransactionContext {outcome : Outcome} (hheld : Held rows) (hs : Over rows s)
    (hpending : s.pending = ∅)
    (hbody : ∀ s', Over rows s' → s'.objects = rows →
      Mirrors rows s' body outcome fun _ => Ready rows id) :
    Mirrors rows s (inTransactionContext body >>= fun _ => orderResponse id) outcome Answers := by
  obtain ⟨hentered, hobjects⟩ := hs.entered hpending
  have henter := run_enter hs hpending
  cases hbody _ hentered hobjects with
  | raises error s' t hm hs' houtcome ht =>
      have hundo : run (beginNested schema).undo s' = (.ok (), s'.rolledBackToSavepoint) := rfl
      have hrun := run_inTransactionContext_error hs.active (run_within_error henter hm hundo)
      refine .raises error s'.rolledBackToSavepoint t ?_ hs' houtcome ht
      simp only [run_bind, hrun]
  | returns value s' hm hready =>
      by_cases hfits : ∀ k row, s'.pending.lookup k = some row → schema.fits k row = true
      · obtain ⟨hleave, hcommit⟩ := run_leave hready.toOver hfits
        have hrun := run_inTransactionContext hs.active (run_within henter hm hleave) rfl hcommit
        obtain ⟨response, t, houtcome, hflushed⟩ :=
          hready.flushed ((hready.toOver.fit_iff hheld).mpr hfits)
        have hrows : ∀ k, (settled s').database.lookup k = t.rows.lookup k :=
          fun k => (hready.toOver.lookup_flushed hheld k).trans (hflushed.rows k).symm
        obtain ⟨order, horder, rfl⟩ := hflushed.response
        have hanswer : run (orderResponse id) (settled s') =
            (.ok ⟨id, order, itemsOf (settled s').current.rows id⟩, (settled s').begun) :=
          run_orderResponse ((hrows (.order id)).trans horder)
        have hitems : itemsOf (settled s').current.rows id = itemsOf t.rows id :=
          itemsOf_congr (hrows (.items id))
        refine .returns ⟨id, order, itemsOf t.rows id⟩ (settled s').begun ?_ ⟨t, houtcome, hrows⟩
        simp only [run_bind, hrun, hanswer, hitems]
      · have hundo : run (beginNested schema).undo s' = (.ok (), s'.rolledBackToSavepoint) := rfl
        have hrun := run_inTransactionContext_error hs.active
          (run_within_refused henter hm (run_leave_refused hready.toOver hfits) hundo)
        obtain ⟨t, houtcome, ht⟩ :=
          hready.refused (mt (hready.toOver.fit_iff hheld).mp hfits)
        refine .raises _ s'.rolledBackToSavepoint t ?_ hready.database houtcome ht
        simp only [run_bind, hrun]

end Context

end SoaHomework.OrderSessions

import SoaHomework.MarketLedger

/-!
# Runs of the marketplace

Every step of a run either leaves the committed rows or is a commit with its
effect (`step_effect`). Requests on different orders therefore find their order
as they have loaded it (`Separate`), which gives the stock ledger. Without that
it has to be asked of every commit (`LoadedCurrent`).
-/

namespace SoaHomework.Marketplace

open StatementProgram

variable {settings : Settings} {rows₀ : Rows} {pool final : MarketPool} {event : MarketEvent}

/-- The committed rows. -/
abbrev rowsOf (pool : MarketPool) : Rows := pool.shared.db.rows

abbrev sessionOf (pool : MarketPool) (i : Nat) : Session := pool.shared.sessions i

/-- Request `i` executes its commit in the step `event`. -/
def Commits (pool : MarketPool) (event : MarketEvent) (i : Nat) (request : Request) : Prop :=
  ∃ choice next, event = .step i choice ∧ pool.Runs i request (.step .commit next)

/-- The start state of the service. -/
abbrev start (rows₀ : Rows) : MarketPool := Pool.initial (State.ofRows rows₀)

/-- The stored rows are well formed and no code is used twice. -/
structure Stored (rows : Rows) : Prop where
  wellFormed : WellFormed rows
  codes : ∀ k k' row row' u, rows.lookup k = some row → rows.lookup k' = some row' →
    codeIndex k row = some u → codeIndex k' row' = some u → k = k'

/-- What `Stored` asks of one row. -/
def storedRow (rows : Rows) : (k : Key) → Row k → Bool
  | .product _, product => decide (0 ≤ product.stock)
  | .order _, o => o.promoCodeID.all fun q => decide (Key.promo q ∈ rows)
  | .items id, items => decide (Key.order id ∈ rows) && items.all fun item =>
      decide (0 ≤ item.quantity) && decide (Key.product item.productID ∈ rows)
  | _, _ => true

def storedCheck (rows : Rows) : Bool :=
  rows.entries.all fun entry => storedRow rows entry.1 entry.2 &&
    rows.entries.all fun other =>
      (codeIndex entry.1 entry.2).all fun u =>
        decide (codeIndex other.1 other.2 ≠ some u) || decide (entry.1 = other.1)

theorem storedRow_of_check {rows : Rows} (h : storedCheck rows = true) {k : Key} {row : Row k}
    (hrow : rows.lookup k = some row) : storedRow rows k row = true := by
  have hentry := List.all_eq_true.mp h ⟨k, row⟩ (AList.mem_lookup_iff.mp hrow)
  exact (Bool.and_eq_true _ _ ▸ hentry).1

theorem stored_of_check {rows : Rows} (h : storedCheck rows = true) : Stored rows := by
  have hitems : ∀ id, ∀ item ∈ itemsOf rows id, Key.order id ∈ rows ∧
      0 ≤ item.quantity ∧ Key.product item.productID ∈ rows := by
    intro id item hitem
    unfold itemsOf at hitem
    cases hrow : rows.lookup (.items id) with
    | none =>
        rw [hrow] at hitem
        cases hitem
    | some items =>
        rw [hrow] at hitem
        have hcheck := storedRow_of_check h hrow
        simp only [storedRow, Bool.and_eq_true, decide_eq_true_eq, List.all_eq_true] at hcheck
        exact ⟨hcheck.1, hcheck.2 item hitem⟩
  constructor
  · constructor
    · intro p product hrow
      exact of_decide_eq_true (storedRow_of_check h hrow)
    · exact fun id item hitem => (hitems id item hitem).2.1
    · exact fun id item hitem => (hitems id item hitem).2.2
    · intro id hmem
      obtain ⟨items, hrow⟩ := Option.isSome_iff_exists.mp (AList.lookup_isSome.mpr hmem)
      have hcheck := storedRow_of_check h hrow
      simp only [storedRow, Bool.and_eq_true, decide_eq_true_eq] at hcheck
      exact hcheck.1
    · intro id o q hrow hq
      have hcheck := storedRow_of_check h hrow
      simp only [storedRow, hq, Option.all_some, decide_eq_true_eq] at hcheck
      exact hcheck
  · intro k k' row row' u hrow hrow' hu hu'
    have hentry := List.all_eq_true.mp h ⟨k, row⟩ (AList.mem_lookup_iff.mp hrow)
    have hother := List.all_eq_true.mp (Bool.and_eq_true _ _ ▸ hentry).2 ⟨k', row'⟩
      (AList.mem_lookup_iff.mp hrow')
    simpa [hu, hu'] using hother

theorem holds_start (h : Stored rows₀) : discipline.Holds (service settings) (start rows₀) :=
  Discipline.holds_initial ⟨RowStore.consistent_ofRows h.codes, h.wellFormed⟩
    fun i => ⟨RowStore.idle_ofRows rows₀ i, rfl⟩

theorem allowed_any (pool : MarketPool) (event : MarketEvent) :
    discipline.Allowed pool event := by
  cases event with
  | start request => exact fun _ _ _ _ => ⟨trivial, trivial⟩
  | step i choice => exact fun _ _ _ _ => trivial
  | stop i => trivial
  | outside change => trivial

theorem holds_next (h : discipline.Holds (service settings) pool)
    (hnext : (service settings).next pool event = some final) :
    discipline.Holds (service settings) final :=
  Discipline.holds_next sound h (allowed_any pool event) hnext

/-- A step leaves the committed rows, and sessions load committed rows; or it
    is a commit with its effect. -/
theorem step_effect (h : discipline.Holds (service settings) pool)
    (hnext : (service settings).next pool event = some final) :
    (rowsOf final = rowsOf pool ∧ ∀ j request program, pool.Runs j request program →
      SessionStep request (rowsOf pool) (sessionOf pool j) (sessionOf final j)) ∨
    ∃ i request, Commits pool event i request ∧
      Effect (sessionOf pool i) (pool.shared.db.pending i) (rowsOf pool) (rowsOf final) request ∧
      sessionOf final i = .empty ∧ ∀ j, i ≠ j → sessionOf final j = sessionOf pool j := by
  have hsame : ∀ {i request program} {s : State}, pool.Runs i request program →
      s.db.rows = rowsOf pool →
      (∀ j, i ≠ j → s.sessions j = sessionOf pool j) →
      SessionStep request (rowsOf pool) (sessionOf pool i) (s.sessions i) →
      s.db.rows = rowsOf pool ∧ ∀ j request program, pool.Runs j request program →
        SessionStep request (rowsOf pool) (sessionOf pool j) (s.sessions j) := by
    intro i request program s hruns hrows hothers hself
    refine ⟨hrows, fun j request' program' hruns' => ?_⟩
    by_cases hij : i = j
    · subst hij
      rw [← (Service.runs_unique hruns hruns').1]
      exact hself
    · rw [hothers j hij]
      exact SessionStep.refl _ _
  have hclose : ∀ {i request program}, pool.Runs i request program →
      ((service settings).close i pool.shared).db.rows = rowsOf pool ∧
        ∀ j request program, pool.Runs j request program →
          SessionStep request (rowsOf pool) (sessionOf pool j)
            (((service settings).close i pool.shared).sessions j) := by
    intro i request program hruns
    refine hsame hruns rfl (fun j hij => withSession_other hij _) ?_
    rw [service, withSession_self]
    exact SessionStep.empty _ _
  cases Service.move_of_next hnext with
  | start request =>
      exact Or.inl ⟨rfl, fun j request program _ => SessionStep.refl _ _⟩
  | @exec i choice request op next answer s hthread hexec =>
      obtain ⟨hothers, hchange⟩ := h.guarantee sound hthread trivial hexec
      have hsessions : ∀ j, i ≠ j → s.sessions j = sessionOf pool j :=
        fun j hij => (hothers j hij).session
      cases hchange with
      | quiet hrows hsession => exact Or.inl (hsame hthread hrows hsessions hsession)
      | effect heffect hempty =>
          by_cases hcommit : op = .commit
          · subst hcommit
            exact Or.inr ⟨i, request, ⟨choice, next, rfl, hthread⟩, heffect, hempty, hsessions⟩
          · have hrows : s.db.rows = rowsOf pool := by
              cases choice with
              | failure => rw [(execute_failure (i := i) hexec).2]
              | proceed generated => exact (proceed_frame h.inv.1 hcommit hexec).2
            refine Or.inl (hsame hthread hrows hsessions ?_)
            rw [Service.update_shared, hempty]
            exact SessionStep.empty _ _
  | answer hthread _ => exact Or.inl (hclose hthread)
  | stop hthread => exact Or.inl (hclose hthread)
  | outside hchange =>
      simp only [service, Option.some.injEq] at hchange
      subst hchange
      exact Or.inl ⟨rfl, fun j request program _ => SessionStep.refl _ _⟩

/-! ## The stock that requests for products assign -/

/-- The step belongs to a request for a product. -/
def assigns (pool : MarketPool) : MarketEvent → Bool
  | .step i _ => (pool.threads[i]?).any fun thread => thread.request.isForProduct
  | _ => false

/-- How far create_product, update_product and delete_product move the stock of
    `p` along a run: each by its new value less the old one. -/
def assigned (settings : Settings) (p : Uuid) (pool : MarketPool) : List MarketEvent → Int
  | [] => 0
  | event :: events =>
      match (service settings).next pool event with
      | some pool' =>
          (if assigns pool event then stockOf (rowsOf pool') p - stockOf (rowsOf pool) p else 0) +
            assigned settings p pool' events
      | none => 0

/-- The request gives `p` the stock of its payload. -/
def Assigns (p : Uuid) (rows rows' : Rows) : Request → Prop
  | .createProduct _ payload => rows.lookup (.product p) = none ∧ stockOf rows' p = payload.stock
  | .updateProduct _ id payload => id = p ∧ payload.stock = .value (stockOf rows' p)
  | _ => False

/-- A commit of a request for a product leaves a stock, or gives it its value. -/
theorem assigns_of_effect {session : Session} {written rows rows' : Rows} {request : Request}
    (h : Effect session written rows rows' request) (hproduct : request.isForProduct = true)
    {p : Uuid} (hmoved : stockOf rows' p ≠ stockOf rows p) : Assigns p rows rows' request := by
  have hother : ∀ {id}, (∀ k, k ≠ .product id → rows'.lookup k = rows.lookup k) → p = id := by
    intro id hothers
    by_contra hne
    exact hmoved (by simp only [stockOf, hothers (.product p) (by simpa using hne)])
  cases h with
  | createProduct id product hfresh hrow _ hothers hassigned =>
      obtain rfl := hother hothers
      exact ⟨hfresh, by simp only [stockOf, hrow, hassigned]⟩
  | writeProduct id set _ hrow _ hothers hassigned =>
      obtain rfl := hother hothers
      cases hbefore : rows.lookup (.product p) with
      | none =>
          rw [hbefore] at hrow
          exact absurd (by simp only [stockOf, hrow, hbefore, Option.map_none]) hmoved
      | some product =>
          have hafter : stockOf rows' p = (set product).stock := by
            simp only [stockOf, hrow, hbefore, Option.map_some]
          rcases hassigned product with hsame | ⟨subject, payload, rfl, hvalue⟩
          · exact absurd (by rw [hafter, hsame, stockOf, hbefore]) hmoved
          · exact ⟨rfl, by rw [hafter, hvalue]⟩
  | createPromoCode => cases hproduct
  | createOrder => cases hproduct
  | updateOrder => cases hproduct
  | cancelOrder => cases hproduct

/-- Each part of `assigned` that is not zero is a commit of create_product or update_product
    that gives the stock the value of its payload. -/
theorem assigned_next (h : discipline.Holds (service settings) pool)
    (hnext : (service settings).next pool event = some final)
    (hassigns : assigns pool event = true) {p : Uuid}
    (hmoved : stockOf (rowsOf final) p ≠ stockOf (rowsOf pool) p) :
    ∃ i request, Commits pool event i request ∧
      Assigns p (rowsOf pool) (rowsOf final) request := by
  rcases step_effect h hnext with ⟨hrows, _⟩ | ⟨i, request, hcommits, heffect, _, _⟩
  · rw [hrows] at hmoved
    exact absurd rfl hmoved
  · refine ⟨i, request, hcommits, assigns_of_effect heffect ?_ hmoved⟩
    obtain ⟨choice, next, rfl, hruns⟩ := hcommits
    rw [Pool.Runs] at hruns
    simpa only [assigns, hruns, Option.any_some] using hassigns

/-- Requests for orders and promo codes assign no stock. -/
theorem assigned_of_orders {first : MarketPool} (p : Uuid) {events : List MarketEvent}
    (hfirst : ∀ thread ∈ first.threads, thread.request.isForProduct = false)
    (hevents : ∀ request, .start request ∈ events → request.isForProduct = false) :
    assigned settings p first events = 0 := by
  induction events generalizing first with
  | nil => rfl
  | cons event events ih =>
      rw [assigned]
      cases hnext : (service settings).next first event with
      | none => rfl
      | some middle =>
          have hassigns : assigns first event = false := by
            cases event with
            | step i choice =>
                cases hthread : first.threads[i]? with
                | none => simp [assigns, hthread]
                | some thread =>
                    simpa [assigns, hthread] using hfirst thread (List.mem_of_getElem? hthread)
            | _ => rfl
          have hmiddle : ∀ thread ∈ middle.threads, thread.request.isForProduct = false := by
            intro thread hmem
            obtain ⟨i, hthread⟩ := List.mem_iff_getElem?.mp hmem
            rcases Service.thread_of_next hnext hthread with ⟨before, hbefore, hsame⟩ | ⟨hstart, _⟩
            · rw [← hsame]
              exact hfirst before (List.mem_of_getElem? hbefore)
            · exact hevents _ (hstart ▸ List.mem_cons_self)
          have hrest := ih hmiddle fun request hmem => hevents request (List.mem_cons_of_mem _ hmem)
          simp only [hassigns, Bool.false_eq_true, if_false, hrest, Int.zero_add]

/-- One step moves the ledger by what is assigned in it, if the order of a
    committing request is current. -/
theorem ledger_next (h : discipline.Holds (service settings) pool)
    (hnext : (service settings).next pool event = some final)
    (hcurrent : ∀ i request, Commits pool event i request →
      Current (sessionOf pool i) (rowsOf pool)) (p : Uuid) :
    ledger (rowsOf final) p = ledger (rowsOf pool) p +
      if assigns pool event then stockOf (rowsOf final) p - stockOf (rowsOf pool) p else 0 := by
  rcases step_effect h hnext with ⟨hrows, _⟩ | ⟨i, request, hcommits, heffect, _, _⟩
  · rw [hrows]
    split
    · omega
    · omega
  · rw [heffect.ledger h.inv.2 (hcurrent i request hcommits) p]
    obtain ⟨choice, next, rfl, hruns⟩ := hcommits
    rw [Pool.Runs] at hruns
    simp only [assigns, hruns, Option.any_some]

/-- The sum over a whole run. -/
theorem ledger_run {check : MarketPool → MarketEvent → Bool} {P : MarketPool → Prop}
    (hP : ∀ {pool event final}, P pool → check pool event = true →
      (service settings).next pool event = some final → P final)
    (hholds : ∀ {pool}, P pool → discipline.Holds (service settings) pool)
    (hcurrent : ∀ {pool event}, P pool → check pool event = true → ∀ i request,
      Commits pool event i request → Current (sessionOf pool i) (rowsOf pool))
    {first : MarketPool} {events : List MarketEvent} (hfirst : P first)
    (hpasses : (service settings).passes check first events = true)
    (hrun : (service settings).run first events = some final) (p : Uuid) :
    P final ∧ ledger (rowsOf final) p =
      ledger (rowsOf first) p + assigned settings p first events := by
  induction events generalizing first with
  | nil =>
      simp only [Service.run, Option.some.injEq] at hrun
      subst hrun
      exact ⟨hfirst, by simp [assigned]⟩
  | cons event events ih =>
      simp only [Service.run, Option.bind_eq_some_iff] at hrun
      obtain ⟨middle, hnext, hrest⟩ := hrun
      simp only [Service.passes, hnext, Bool.and_eq_true] at hpasses
      obtain ⟨hfinal, hledger⟩ := ih (hP hfirst hpasses.1 hnext) hpasses.2 hrest
      refine ⟨hfinal, ?_⟩
      rw [hledger, ledger_next (hholds hfirst) hnext (hcurrent hfirst hpasses.1)]
      simp only [assigned, hnext]
      omega

/-! ## Requests on different orders -/

/-- Both act on the same order. -/
def Request.conflicts (request request' : Request) : Bool :=
  request.target.isSome && decide (request.target = request'.target)

/-- No request starts while one on the same order is running. -/
def separate (pool : MarketPool) : MarketEvent → Bool
  | .start request => (List.range pool.threads.length).all fun j =>
      !(pool.isRunning j && (pool.threads[j]?).any fun thread =>
        request.conflicts thread.request)
  | _ => true

theorem separate_start {request request' : Request} {j : Nat}
    {program : Handler Response} (h : separate pool (.start request) = true)
    (hruns : pool.Runs j request' program) : request.conflicts request' = false := by
  have hlt := Service.lt_length_of_getElem hruns
  have hj := List.all_eq_true.mp h j (List.mem_range.mpr hlt)
  have hrunning : pool.isRunning j = true := by
    rw [Pool.isRunning, Service.program?_eq_some.mpr ⟨request', hruns⟩]
    rfl
  rw [Pool.Runs] at hruns
  simpa [hrunning, hruns] using hj

theorem conflicts_comm (request request' : Request) :
    request.conflicts request' = request'.conflicts request := by
  rw [Bool.eq_iff_iff]
  simp only [Request.conflicts, Bool.and_eq_true, decide_eq_true_eq]
  constructor
  · rintro ⟨hsome, heq⟩
    exact ⟨heq ▸ hsome, heq.symm⟩
  · rintro ⟨hsome, heq⟩
    exact ⟨heq ▸ hsome, heq.symm⟩

/-- The running requests act on different orders, and each finds its order as
    it has loaded it. -/
structure Separate (settings : Settings) (pool : MarketPool) : Prop where
  holds : discipline.Holds (service settings) pool
  different : ∀ i j request request' program program', i ≠ j → pool.Runs i request program →
    pool.Runs j request' program' → request.conflicts request' = false
  loaded : ∀ i request program, pool.Runs i request program → ∀ id o,
    (sessionOf pool i).order = some (id, o) → request.target = some id ∧
      (rowsOf pool).lookup (.order id) = some o ∧
      ∀ items, (sessionOf pool i).items = some (id, items) → itemsOf (rowsOf pool) id = items

theorem separate_initial (h : Stored rows₀) : Separate settings (start rows₀) where
  holds := holds_start h
  different i j request request' program program' _ hi := by simp [Pool.Runs] at hi
  loaded i request program hi := by simp [Pool.Runs] at hi

theorem Separate.next (h : Separate settings pool) (hcheck : separate pool event = true)
    (hnext : (service settings).next pool event = some final) : Separate settings final where
  holds := holds_next h.holds hnext
  different i j request request' program program' hij hi hj := by
    rcases Service.runs_of_next hnext hi with ⟨before, hi'⟩ | ⟨rfl, hilen⟩
    · rcases Service.runs_of_next hnext hj with ⟨before', hj'⟩ | ⟨rfl, _⟩
      · exact h.different i j request request' before before' hij hi' hj'
      · rw [conflicts_comm]
        exact separate_start hcheck hi'
    · rcases Service.runs_of_next hnext hj with ⟨before', hj'⟩ | ⟨_, hjlen⟩
      · exact separate_start hcheck hj'
      · exact absurd (hilen.trans hjlen.symm) hij
  loaded i request program hi id o ho := by
    rcases Service.runs_of_next hnext hi with ⟨before, hi'⟩ | ⟨rfl, hlen⟩
    · rcases step_effect h.holds hnext with ⟨hrows, hsessions⟩ |
        ⟨k, request', ⟨choice, next, _, hk⟩, heffect, hempty, hothers⟩
      · rw [hrows]
        have hstep := hsessions i request before hi'
        have horder : request.target = some id ∧ (rowsOf pool).lookup (.order id) = some o := by
          rcases hstep.order id o ho with hold | ⟨hrow, htarget, _, _⟩
          · exact ⟨(h.loaded i request before hi' id o hold).1,
              (h.loaded i request before hi' id o hold).2.1⟩
          · exact ⟨htarget, hrow⟩
        refine ⟨horder.1, horder.2, fun items hitems => ?_⟩
        rcases hstep.items id items hitems with hold | hloaded
        · rcases hstep.order id o ho with hold' | ⟨_, _, hnone, _⟩
          · exact (h.loaded i request before hi' id o hold').2.2 items hold
          · rw [hnone] at hitems
            cases hitems
        · exact hloaded
      · by_cases hik : k = i
        · subst hik
          rw [hempty] at ho
          cases ho
        · rw [hothers i hik] at ho ⊢
          obtain ⟨htarget, hrow, hitems⟩ := h.loaded i request before hi' id o ho
          have hne : request'.target ≠ some id := by
            intro heq
            have hconflict := h.different k i request' request _ _ hik hk hi'
            simp [Request.conflicts, heq, htarget] at hconflict
          obtain ⟨horder', hitems'⟩ := heffect.order_kept (mem_of_lookup hrow) hne
          refine ⟨htarget, horder'.trans hrow, fun items hloaded => ?_⟩
          rw [itemsOf_congr hitems']
          exact hitems items hloaded
    · -- a session that starts has loaded nothing
      simp only [Service.next, Option.some.injEq] at hnext
      have hunused := (h.holds.unused i (Nat.le_of_eq hlen.symm)).2
      rw [← hnext, sessionOf, hunused] at ho
      cases ho

theorem Separate.current (h : Separate settings pool) {i : Nat} {request : Request}
    (hcommits : Commits pool event i request) : Current (sessionOf pool i) (rowsOf pool) := by
  obtain ⟨_, next, _, hruns⟩ := hcommits
  intro id o ho
  obtain ⟨_, hrow, hitems⟩ := h.loaded i request _ hruns id o ho
  exact ⟨⟨o, hrow, rfl⟩, hitems⟩

/-- The stock ledger: as long as no two overlapping requests act on the same
    order, stocks stay nonnegative, and the stock of a product together with
    what the active orders hold of it moves only by what requests for products
    assign. -/
theorem stock_ledger (hrows : Stored rows₀) {events : List MarketEvent}
    (hrun : (service settings).run (start rows₀) events = some pool)
    (hseparate : (service settings).passes separate (start rows₀) events = true) (p : Uuid) :
    0 ≤ stockOf (rowsOf pool) p ∧
      ledger (rowsOf pool) p =
        ledger rows₀ p + assigned settings p (start rows₀) events := by
  obtain ⟨hfinal, hledger⟩ := ledger_run (P := Separate settings) (fun h => h.next)
    (fun h => h.holds) (fun h _ _ _ hcommits => h.current hcommits) (separate_initial hrows)
    hseparate hrun p
  refine ⟨?_, hledger⟩
  unfold stockOf
  cases hp : (rowsOf pool).lookup (.product p) with
  | none => exact Int.le_refl 0
  | some product => exact hfinal.holds.inv.2.stock p product hp

/-- Three users, a seller, two products with 5 in stock, a promo code for one
    use, and an order of the first user for 3 of the first product. -/
def sampleRows : Rows :=
  let product : Product := ⟨"Kettle", none, 7, 5, "kitchen", .active, 3⟩
  (((((((((∅ : Rows).insert (.user 1) ⟨.user⟩).insert (.user 2) ⟨.user⟩).insert (.user 4)
    ⟨.user⟩).insert (.user 3) ⟨.seller⟩).insert (.product 10) product).insert (.product 11)
    product).insert (.promo 20)
    ⟨"KETTLE", .fixedAmount, 5, 0, 1, 0, 0, 10, true⟩).insert (.order 100)
    ⟨1, .created, none, 21, 0⟩).insert (.items 100) [⟨101, 10, 3, 7⟩]

/-- The statement of request `i` that follows, where `uuid4()` gives `ids`. -/
def sampleStep (i : Nat) (ids : List Uuid) : MarketEvent := .step i (.proceed ids)

/-- An order for 2 of the product `p`. -/
def sampleOrder (p : Uuid) (promoCode : Option String) : OrderCreateRequest where
  items := [⟨p, 2, by omega, by omega⟩]
  promoCode := promoCode
  minItems := Nat.one_pos
  maxItems := Nat.le_of_ble_eq_true rfl

/-- The second user orders 2 of the first product while the first user cancels
    the order for 3 of it; the cancellation waits for the product row. -/
def orderAndCancel : List MarketEvent :=
  [.start (.createOrder 2 (sampleOrder 10 none)), .start (.cancelOrder 1 100)] ++
    List.replicate 3 (sampleStep 1 []) ++ List.replicate 5 (sampleStep 0 []) ++
    [sampleStep 0 [200], sampleStep 0 [201], sampleStep 0 [202]] ++
    List.replicate 4 (sampleStep 0 []) ++ List.replicate 7 (sampleStep 1 [])

theorem stock_ledger_sample : ∃ pool : MarketPool,
    (service ⟨5⟩).run (start sampleRows) orderAndCancel = some pool ∧
      stockOf (rowsOf pool) 10 = 6 ∧ 0 ≤ stockOf (rowsOf pool) 10 ∧
      ledger (rowsOf pool) 10 = ledger sampleRows 10 +
        assigned ⟨5⟩ 10 (start sampleRows) orderAndCancel := by
  have hrun : ((service ⟨5⟩).run (start sampleRows) orderAndCancel).isSome := by
    decide +kernel
  exact ⟨_, (Option.some_get hrun).symm, by decide +kernel +revert,
    stock_ledger (stored_of_check (by decide +kernel)) (Option.some_get hrun).symm
      (by decide +kernel) 10⟩

/-! ## Requests on the same order -/

/-- The status and the items of the order that the session has loaded are
    committed. -/
def currentOrder (session : Session) (rows : Rows) : Bool :=
  match session.order with
  | none => true
  | some (id, o) =>
      (rows.lookup (.order id) : Option Order).any (fun present =>
        decide (present.status = o.status)) &&
      match session.items with
      | none => true
      | some (id', items) => decide (id' ≠ id) || decide (itemsOf rows id = items)

theorem current_of_currentOrder {session : Session} {rows : Rows}
    (h : currentOrder session rows = true) : Current session rows := by
  intro id o ho
  simp only [currentOrder, ho, Bool.and_eq_true] at h
  obtain ⟨hstatus, hitems⟩ := h
  refine ⟨?_, fun items hloaded => ?_⟩
  · obtain ⟨present, hpresent, hsame⟩ := (Option.any_eq_true _ _).mp hstatus
    exact ⟨present, hpresent, of_decide_eq_true hsame⟩
  · simp only [hloaded] at hitems
    simpa using hitems

/-- A request that commits finds its order as its session has loaded it. -/
def loadedCurrent (pool : MarketPool) : MarketEvent → Bool
  | .step i _ =>
      match pool.program? i with
      | some (.step .commit _) => currentOrder (sessionOf pool i) (rowsOf pool)
      | _ => true
  | _ => true

theorem current_of_loadedCurrent (h : loadedCurrent pool event = true) {i : Nat}
    {request : Request} (hcommits : Commits pool event i request) :
    Current (sessionOf pool i) (rowsOf pool) := by
  obtain ⟨choice, next, rfl, hruns⟩ := hcommits
  have hprogram := Service.program?_eq_some.mpr ⟨request, hruns⟩
  simp only [loadedCurrent, hprogram] at h
  exact current_of_currentOrder h

/-- A canceled order stays as it is in a step. -/
theorem canceled_next (h : discipline.Holds (service settings) pool)
    (hnext : (service settings).next pool event = some final)
    (hcurrent : loadedCurrent pool event = true) {id : Uuid} {o : Order}
    (ho : (rowsOf pool).lookup (.order id) = some o) (hcanceled : o.status = .canceled) :
    (rowsOf final).lookup (.order id) = some o ∧
      (rowsOf final).lookup (.items id) = (rowsOf pool).lookup (.items id) := by
  rcases step_effect h hnext with ⟨hrows, _⟩ | ⟨i, request, hcommits, heffect, _, _⟩
  · rw [hrows]
    exact ⟨ho, rfl⟩
  · exact heffect.canceled_kept (current_of_loadedCurrent hcurrent hcommits) ho hcanceled

theorem canceled_run {events : List MarketEvent} {first : MarketPool}
    (h : discipline.Holds (service settings) first)
    (hpasses : (service settings).passes loadedCurrent first events = true)
    (hrun : (service settings).run first events = some final) {id : Uuid} {o : Order}
    (ho : (rowsOf first).lookup (.order id) = some o) (hcanceled : o.status = .canceled) :
    (rowsOf final).lookup (.order id) = some o ∧
      (rowsOf final).lookup (.items id) = (rowsOf first).lookup (.items id) := by
  refine (Service.run_invariant (P := fun pool => discipline.Holds (service settings) pool ∧
    (rowsOf pool).lookup (.order id) = some o ∧
      (rowsOf pool).lookup (.items id) = (rowsOf first).lookup (.items id))
    ?_ ⟨h, ho, rfl⟩ hpasses hrun).2
  rintro middle event final ⟨hholds, horder, hitems⟩ hcurrent hnext
  obtain ⟨horder', hitems'⟩ := canceled_next hholds hnext hcurrent horder hcanceled
  exact ⟨holds_next hholds hnext, horder', hitems'.trans hitems⟩

/-- From any reachable state, in every run whose commits find their order as
    loaded: the ledger of each product moves only by what requests for products
    assign, and canceled orders and their items stay as they are. -/
theorem stock_returned_once (hrows : Stored rows₀) {first : MarketPool}
    (hreachable : (service settings).Steps Service.anyStep (start rows₀) first)
    {events : List MarketEvent}
    (hrun : (service settings).run first events = some final)
    (hcurrent : (service settings).passes loadedCurrent first events = true) :
    (∀ p, ledger (rowsOf final) p =
        ledger (rowsOf first) p + assigned settings p first events) ∧
      ∀ id o, (rowsOf first).lookup (.order id) = some o → o.status = .canceled →
        (rowsOf final).lookup (.order id) = some o ∧
          itemsOf (rowsOf final) id = itemsOf (rowsOf first) id := by
  have hfirst : discipline.Holds (service settings) first :=
    Discipline.holds_steps sound (hreachable.mono fun pool event _ => allowed_any pool event)
      (holds_start hrows)
  refine ⟨fun p => ?_, fun id o ho hcanceled => ?_⟩
  · exact (ledger_run (P := discipline.Holds (service settings)) (fun h _ => holds_next h)
      (fun h => h) (fun _ hcheck _ _ hcommits => current_of_loadedCurrent hcheck hcommits)
      hfirst hcurrent hrun p).2
  · obtain ⟨horder, hitems⟩ := canceled_run hfirst hcurrent hrun ho hcanceled
    exact ⟨horder, itemsOf_congr hitems⟩

/-- Two cancellations of one order, the second of which reads it after the
    first has committed. -/
def cancelTwice : List MarketEvent :=
  [.start (.cancelOrder 1 100), .start (.cancelOrder 1 100)] ++
    List.replicate 10 (sampleStep 0 []) ++ List.replicate 3 (sampleStep 1 [])

theorem stock_returned_once_sample : ∃ pool : MarketPool,
    (service ⟨5⟩).run (start sampleRows) cancelTwice = some pool ∧
      stockOf (rowsOf pool) 10 = 8 ∧
      ledger (rowsOf pool) 10 = ledger sampleRows 10 +
        assigned ⟨5⟩ 10 (start sampleRows) cancelTwice := by
  have hrun : ((service ⟨5⟩).run (start sampleRows) cancelTwice).isSome := by
    decide +kernel
  exact ⟨_, (Option.some_get hrun).symm, by decide +kernel +revert,
    (stock_returned_once (stored_of_check (by decide +kernel)) (.refl _)
      (Option.some_get hrun).symm (by decide +kernel)).1 10⟩

/-- Two cancellations that both read the order before either commits. -/
def cancelTogether : List MarketEvent :=
  [.start (.cancelOrder 1 100), .start (.cancelOrder 1 100)] ++
    List.replicate 3 (sampleStep 0 []) ++ List.replicate 3 (sampleStep 1 []) ++
    List.replicate 7 (sampleStep 0 []) ++ List.replicate 7 (sampleStep 1 [])

/-- The items of the order are given back twice: the stock grows from 5 to 11,
    though the order held 3. -/
theorem stock_returned_twice : ∃ pool : MarketPool,
    (service ⟨5⟩).run (start sampleRows) cancelTogether = some pool ∧
      pool.isRunning 0 = false ∧ pool.isRunning 1 = false ∧
      ledger sampleRows 10 = 8 ∧ stockOf (rowsOf pool) 10 = 11 ∧
      ledger (rowsOf pool) 10 = 11 := by
  have hrun : ((service ⟨5⟩).run (start sampleRows) cancelTogether).isSome := by
    decide +kernel
  exact ⟨_, (Option.some_get hrun).symm, by decide +kernel +revert⟩

end SoaHomework.Marketplace

import SoaHomework.MarketRuns

/-!
# The promo counters of the marketplace

`current_uses` of a promo code is to be the number of orders that use it. The
handlers read the promo row without a lock and write the counter back as an
absolute value, so a commit keeps the count only when the counter it has read
is still the committed one.
-/

namespace SoaHomework.Marketplace

open StatementProgram

/-- An order that is not canceled counts as a use of its promo code. -/
def linkedWeight (q : Uuid) : (k : Key) → Row k → Int
  | .order _, o => if o.status ≠ .canceled ∧ o.promoCodeID = some q then 1 else 0
  | _, _ => 0

/-- The number of orders with the promo code `q` that are not canceled. -/
def linked (rows : Rows) (q : Uuid) : Int := rows.total (linkedWeight q)

/-- Each promo code counts the orders that use it, and these are at most
    `max_uses`. -/
def PromoLedger (rows : Rows) : Prop :=
  ∀ q promo, rows.lookup (.promo q) = some promo →
    promo.currentUses = linked rows q ∧ linked rows q ≤ promo.maxUses

variable {settings : Settings} {rows₀ rows rows' written : Rows} {session : Session}
  {request : Request} {pool final : MarketPool} {event : MarketEvent}

/-! ## Counting the uses -/

theorem weightAt_linked_other {q : Uuid} {k : Key} (hk : ∀ id, k ≠ .order id) (s : Rows) :
    s.weightAt (linkedWeight q) k = 0 := by
  cases hrow : s.lookup k with
  | none => exact AList.weightAt_of_lookup_none hrow
  | some row =>
      rw [AList.weightAt_of_lookup hrow]
      cases k with
      | order id => exact absurd rfl (hk id)
      | _ => rfl

/-- When one order changes, the uses change by what it counts. -/
theorem linked_of_others {q : Uuid} (id : Uuid)
    (h : ∀ id', id' ≠ id → rows'.lookup (.order id') = rows.lookup (.order id')) :
    linked rows' q = linked rows q + (rows'.weightAt (linkedWeight q) (.order id) -
      rows.weightAt (linkedWeight q) (.order id)) := by
  refine AList.total_sub_total (Key.order id) fun k hk => ?_
  cases k with
  | order id' => exact AList.weightAt_congr (h id' fun heq => hk (by rw [heq]))
  | _ => rw [weightAt_linked_other (by simp), weightAt_linked_other (by simp)]

theorem linked_congr {q : Uuid}
    (h : ∀ id, rows'.lookup (.order id) = rows.lookup (.order id)) :
    linked rows' q = linked rows q := by
  rw [linked_of_others 0 fun id _ => h id, AList.weightAt_congr (h 0)]
  omega

theorem linkedWeight_nonneg (q : Uuid) (k : Key) (row : Row k) : 0 ≤ linkedWeight q k row := by
  cases k with
  | order id =>
      simp only [linkedWeight]
      split
      · omega
      · omega
  | _ => exact Int.le_refl 0

/-- An order that uses the promo code is counted. -/
theorem linked_pos {q id : Uuid} {o : Order} (ho : rows.lookup (.order id) = some o)
    (hstatus : o.status ≠ .canceled) (hq : o.promoCodeID = some q) : 0 < linked rows q := by
  have hle : linkedWeight q (.order id) o ≤ linked rows q :=
    AList.weight_le_total (fun k row _ => linkedWeight_nonneg q k row) ho
  simp only [linkedWeight, hstatus, hq, ne_eq, not_false_eq_true, and_self, if_true] at hle
  omega

/-- A promo code without a row is used by no order. -/
theorem linked_missing {q : Uuid} (hrows : WellFormed rows)
    (hq : rows.lookup (.promo q) = none) : linked rows q = 0 := by
  refine AList.total_eq_zero fun k row hrow => ?_
  cases k with
  | order id =>
      have hne : row.promoCodeID ≠ some q := fun hpromo =>
        AList.lookup_eq_none.mp hq (hrows.promo id row q hrow hpromo)
      simp only [linkedWeight, hne, and_false, if_false]
  | _ => rfl

/-! ## What an effect does to the counters -/

/-- What a session that commits must have loaded: its order as it is, and a
    promo row of which it knows `max_uses` and, if it writes the counter, the
    counter. -/
structure PromoCurrent (session : Session) (written rows : Rows) : Prop where
  order : ∀ id o, session.order = some (id, o) → rows.lookup (.order id) = some o
  limit : ∀ q promo, session.promo = some (q, promo) →
    ∃ present, rows.lookup (.promo q) = some present ∧ present.maxUses = promo.maxUses
  used : ∀ id o q promo, session.order = some (id, o) → session.promo = some (q, promo) →
    o.status ≠ .canceled → o.promoCodeID = some q → 0 < promo.currentUses
  uses : ∀ q promo present, session.promo = some (q, promo) → .promo q ∈ written →
    rows.lookup (.promo q) = some present → present.currentUses = promo.currentUses

/-- The counters follow the orders when what is assigned to them is what the
    order of the request counts. -/
theorem OrderWrite.promoLedger {id : Uuid} {change : Uuid → Int} {uses : Option (Uuid × Int)}
    (h : OrderWrite written rows rows' id change uses) (hledger : PromoLedger rows)
    (huses : ∀ q promo, rows.lookup (.promo q) = some promo →
      (assignUses uses q promo).currentUses = promo.currentUses +
          (rows'.weightAt (linkedWeight q) (.order id) -
            rows.weightAt (linkedWeight q) (.order id)) ∧
        (assignUses uses q promo).currentUses ≤ (assignUses uses q promo).maxUses) :
    PromoLedger rows' := by
  intro q promo' hpromo'
  rw [h.promos, Option.map_eq_some_iff] at hpromo'
  obtain ⟨promo, hpromo, rfl⟩ := hpromo'
  obtain ⟨hcount, _⟩ := hledger q promo hpromo
  obtain ⟨hassigned, hlimit⟩ := huses q promo hpromo
  have hlinked := linked_of_others (q := q) id fun id' hid => (h.others id' hid).1
  constructor
  · omega
  · omega

theorem assignUses_none (q : Uuid) (promo : PromoCode) : assignUses none q promo = promo := rfl

theorem assignUses_self (q : Uuid) (n : Int) (promo : PromoCode) :
    assignUses (some (q, n)) q promo = { promo with currentUses := n } := by
  simp [assignUses]

theorem assignUses_other {q q' : Uuid} (hq : q' ≠ q) (n : Int) (promo : PromoCode) :
    assignUses (some (q', n)) q promo = promo := by
  simp [assignUses, hq]

theorem assignUses_maxUses (uses : Option (Uuid × Int)) (q : Uuid) (promo : PromoCode) :
    (assignUses uses q promo).maxUses = promo.maxUses := by
  unfold assignUses
  split
  · split
    · rfl
    · rfl
  · rfl

theorem PromoLedger.limit (h : PromoLedger rows) {q : Uuid} {promo : PromoCode}
    (hpromo : rows.lookup (.promo q) = some promo) : promo.currentUses ≤ promo.maxUses := by
  obtain ⟨hcount, hlimit⟩ := h q promo hpromo
  omega

/-- The order of the request keeps what it counts, and no counter is written. -/
theorem OrderWrite.promoLedger_kept {id : Uuid} {change : Uuid → Int}
    (h : OrderWrite written rows rows' id change none) (hledger : PromoLedger rows)
    (hsame : ∀ q, rows'.weightAt (linkedWeight q) (.order id) =
      rows.weightAt (linkedWeight q) (.order id)) : PromoLedger rows' := by
  refine h.promoLedger hledger fun q promo hpromo => ?_
  rw [hsame q, assignUses_none]
  exact ⟨by omega, hledger.limit hpromo⟩

/-- The order of the request gives up its use of `q`, and the counter that was
    read is still the committed one. -/
theorem OrderWrite.promoLedger_returned {id q : Uuid} {change : Uuid → Int} {promo : PromoCode}
    {o : Order} (h : OrderWrite written rows rows' id change (returnedUse q promo))
    (hledger : PromoLedger rows) (hcurrent : PromoCurrent session written rows)
    (horder : session.order = some (id, o)) (hpromo : session.promo = some (q, promo))
    (hstatus : o.status ≠ .canceled) (hq : o.promoCodeID = some q)
    (hafter : ∀ q', rows'.weightAt (linkedWeight q') (.order id) = 0) : PromoLedger rows' := by
  have hpos := hcurrent.used id o q promo horder hpromo hstatus hq
  rw [returnedUse, if_pos hpos] at h
  have hwritten := h.uses q _ rfl
  refine h.promoLedger hledger fun q' present hpresent => ?_
  rw [hafter, AList.weightAt_of_lookup (hcurrent.order id o horder)]
  have hlimit := hledger.limit hpresent
  by_cases hq' : q = q'
  · subst hq'
    have hsame := hcurrent.uses q promo present hpromo hwritten hpresent
    simp only [assignUses_self, linkedWeight, hstatus, hq, ne_eq, not_false_eq_true, and_self,
      if_true]
    omega
  · have hne : o.promoCodeID ≠ some q' := by
      rw [hq, ne_eq, Option.some.injEq]
      exact hq'
    simp only [assignUses_other hq', linkedWeight, hne, and_false, if_false]
    exact ⟨by omega, hlimit⟩

/-- An effect keeps the counters when what the session has loaded is current. -/
theorem Effect.promoLedger (h : Effect session written rows rows' request)
    (hrows : WellFormed rows) (hledger : PromoLedger rows)
    (hcurrent : PromoCurrent session written rows) : PromoLedger rows' := by
  cases h with
  | createProduct id product _ _ _ hothers =>
      intro q promo hpromo
      rw [hothers _ (by simp)] at hpromo
      rw [linked_congr fun id' => hothers (.order id') (by simp)]
      exact hledger q promo hpromo
  | writeProduct id set _ _ _ hothers =>
      intro q promo hpromo
      rw [hothers _ (by simp)] at hpromo
      rw [linked_congr fun id' => hothers (.order id') (by simp)]
      exact hledger q promo hpromo
  | createPromoCode id created hfresh hcreated hunused hmax hothers =>
      intro q promo hpromo
      rw [linked_congr fun id' => hothers (.order id') (by simp)]
      by_cases hq : q = id
      · subst hq
        rw [hcreated, Option.some.injEq] at hpromo
        rw [← hpromo, linked_missing hrows hfresh, hunused]
        exact ⟨rfl, by omega⟩
      · rw [hothers (.promo q) (by simpa using hq)] at hpromo
        exact hledger q promo hpromo
  | @createOrder _ payload uses id order items hfresh hwrite _ horder _ _ _ hstatus hpromo =>
      have hbefore : ∀ q, rows.weightAt (linkedWeight q) (.order id) = 0 :=
        fun q => AList.weightAt_of_lookup_none hfresh
      have hafter : ∀ q, rows'.weightAt (linkedWeight q) (.order id) =
          if order.promoCodeID = some q then 1 else 0 := by
        intro q
        rw [AList.weightAt_of_lookup horder]
        simp only [linkedWeight, hstatus, ne_eq, reduceCtorEq, not_false_eq_true, true_and]
      generalize payload.promoCode = code at hpromo
      cases hpromo with
      | without hnone =>
          refine hwrite.promoLedger_kept hledger fun q => ?_
          rw [hbefore, hafter, hnone, if_neg (by simp)]
      | use code q promo hsession _ hleft hq =>
          have hwritten := hwrite.uses q _ rfl
          refine hwrite.promoLedger hledger fun q' present hpresent => ?_
          rw [hbefore, hafter, hq]
          have hlimit := hledger.limit hpresent
          by_cases hq' : q = q'
          · subst hq'
            have hsame := hcurrent.uses q promo present hsession hwritten hpresent
            obtain ⟨present', hpresent', hmax⟩ := hcurrent.limit q promo hsession
            rw [hpresent, Option.some.injEq] at hpresent'
            subst hpresent'
            simp only [assignUses_self, if_true]
            omega
          · rw [assignUses_other hq', if_neg (by simpa using hq')]
            exact ⟨by omega, hlimit⟩
  | @updateOrder _ id payload uses loaded assigned items added hloaded _ hcreated _ hwrite _
      horder hstatus _ _ _ hpromo =>
      have hrow := hcurrent.order id loaded hloaded
      rw [hrow, Option.map_some] at horder
      cases hpromo with
      | keep hsame =>
          refine hwrite.promoLedger_kept hledger fun q => ?_
          rw [AList.weightAt_of_lookup horder, AList.weightAt_of_lookup hrow]
          simp only [linkedWeight, assignOrder_status hstatus, assignOrder_promo hsame]
      | drop q promo hq hsession hnone =>
          refine hwrite.promoLedger_returned hledger hcurrent hloaded hsession
            (by simp [hcreated]) hq fun q' => ?_
          rw [AList.weightAt_of_lookup horder]
          simp [linkedWeight, assignOrder_dropped hq hnone]
  | @cancelOrder _ id uses loaded items hloaded _ hactive hwrite horder _ hpromo =>
      have hrow := hcurrent.order id loaded hloaded
      rw [hrow, Option.map_some] at horder
      have hstatus : loaded.status ≠ .canceled := by
        intro hcanceled
        rw [hcanceled] at hactive
        cases hactive
      have hafter : ∀ q, rows'.weightAt (linkedWeight q) (.order id) = 0 := by
        intro q
        rw [AList.weightAt_of_lookup horder]
        simp [linkedWeight, (assignOrder_canceled hactive).1]
      cases hpromo with
      | without hnone =>
          refine hwrite.promoLedger_kept hledger fun q => ?_
          rw [hafter, AList.weightAt_of_lookup hrow]
          simp [linkedWeight, hnone]
      | give q promo hq hsession =>
          exact hwrite.promoLedger_returned hledger hcurrent hloaded hsession hstatus hq hafter

/-- A promo row keeps its `max_uses`. -/
theorem Effect.maxUses (h : Effect session written rows rows' request) {q : Uuid}
    {promo : PromoCode} (hpromo : rows.lookup (.promo q) = some promo) :
    ∃ promo', rows'.lookup (.promo q) = some promo' ∧ promo'.maxUses = promo.maxUses := by
  have hwrite : ∀ {id change uses}, OrderWrite written rows rows' id change uses →
      ∃ promo', rows'.lookup (.promo q) = some promo' ∧ promo'.maxUses = promo.maxUses := by
    intro id change uses hwrite
    exact ⟨assignUses uses q promo, by rw [hwrite.promos, hpromo]; rfl,
      assignUses_maxUses uses q promo⟩
  cases h with
  | createProduct _ _ _ _ _ hothers => exact ⟨promo, by rw [hothers _ (by simp), hpromo], rfl⟩
  | writeProduct _ _ _ _ _ hothers => exact ⟨promo, by rw [hothers _ (by simp), hpromo], rfl⟩
  | createPromoCode id _ hfresh _ _ _ hothers =>
      have hq : Key.promo q ≠ .promo id := by
        intro heq
        rw [← heq, hpromo] at hfresh
        cases hfresh
      exact ⟨promo, by rw [hothers _ hq, hpromo], rfl⟩
  | createOrder _ _ _ _ _ horder => exact hwrite horder
  | updateOrder _ _ _ _ _ _ _ _ _ horder => exact hwrite horder
  | cancelOrder _ _ _ _ _ _ horder => exact hwrite horder

/-! ## Runs -/

/-- If the session has written the counter of the promo code it has loaded, the
    counter it has read is the committed one. -/
def usesCurrent (session : Session) (written rows : Rows) : Bool :=
  match session.promo with
  | none => true
  | some (q, promo) => decide (.promo q ∉ written) ||
      (rows.lookup (.promo q) : Option PromoCode).all fun present =>
        decide (present.currentUses = promo.currentUses)

/-- A request that commits a promo counter has read the committed one. -/
def loadedUses (pool : MarketPool) : MarketEvent → Bool
  | .step i _ =>
      match pool.program? i with
      | some (.step .commit _) =>
          usesCurrent (sessionOf pool i) (pool.shared.db.pending i) (rowsOf pool)
      | _ => true
  | _ => true

theorem uses_of_loadedUses (h : loadedUses pool event = true) {i : Nat}
    (hcommits : Commits pool event i request) (q : Uuid) (promo present : PromoCode)
    (hpromo : (sessionOf pool i).promo = some (q, promo))
    (hwritten : .promo q ∈ pool.shared.db.pending i)
    (hpresent : (rowsOf pool).lookup (.promo q) = some present) :
    present.currentUses = promo.currentUses := by
  obtain ⟨choice, next, rfl, hruns⟩ := hcommits
  have hprogram := Service.program?_eq_some.mpr ⟨request, hruns⟩
  simp only [loadedUses, hprogram, usesCurrent, hpromo] at h
  simpa [hwritten, hpresent] using h

/-- The counters are right, and what the sessions have loaded of promo codes
    fits the rows. -/
structure Redeemed (settings : Settings) (pool : MarketPool) : Prop where
  separate : Separate settings pool
  ledger : PromoLedger (rowsOf pool)
  limit : ∀ i request program, pool.Runs i request program → ∀ q promo,
    (sessionOf pool i).promo = some (q, promo) →
    ∃ present, (rowsOf pool).lookup (.promo q) = some present ∧ present.maxUses = promo.maxUses
  used : ∀ i request program, pool.Runs i request program → ∀ id o q promo,
    (sessionOf pool i).order = some (id, o) → (sessionOf pool i).promo = some (q, promo) →
    o.status ≠ .canceled → o.promoCodeID = some q → 0 < promo.currentUses

theorem Redeemed.current (h : Redeemed settings pool) (hloaded : loadedUses pool event = true)
    {i : Nat} (hcommits : Commits pool event i request) :
    PromoCurrent (sessionOf pool i) (pool.shared.db.pending i) (rowsOf pool) := by
  obtain ⟨choice, next, hevent, hruns⟩ := hcommits
  constructor
  · exact fun id o ho => (h.separate.loaded i request _ hruns id o ho).2.1
  · exact h.limit i request _ hruns
  · exact h.used i request _ hruns
  · exact uses_of_loadedUses hloaded ⟨choice, next, hevent, hruns⟩

/-- The session of a request that has just started has loaded nothing. -/
theorem session_started (h : discipline.Holds (service settings) pool) {i : Nat}
    (hnext : (service settings).next pool (.start request) = some final)
    (hlen : i = pool.threads.length) : sessionOf final i = .empty := by
  simp only [Service.next, Option.some.injEq] at hnext
  rw [← hnext, sessionOf]
  exact (h.unused i (Nat.le_of_eq hlen.symm)).2

theorem Redeemed.next (h : Redeemed settings pool)
    (hseparate : Marketplace.separate pool event = true)
    (hloaded : loadedUses pool event = true)
    (hnext : (service settings).next pool event = some final) : Redeemed settings final where
  separate := h.separate.next hseparate hnext
  ledger := by
    rcases step_effect h.separate.holds hnext with
      ⟨hrows, _⟩ | ⟨i, request, hcommits, heffect, _, _⟩
    · rw [hrows]
      exact h.ledger
    · exact heffect.promoLedger h.separate.holds.inv.2 h.ledger (h.current hloaded hcommits)
  limit i request program hi q promo hpromo := by
    rcases Service.runs_of_next hnext hi with ⟨before, hi'⟩ | ⟨rfl, hlen⟩
    · rcases step_effect h.separate.holds hnext with ⟨hrows, hsessions⟩ |
        ⟨k, request', _, heffect, hempty, hothers⟩
      · rw [hrows]
        rcases (hsessions i request before hi').promo q promo hpromo with hold | hrow
        · exact h.limit i request before hi' q promo hold
        · exact ⟨promo, hrow, rfl⟩
      · by_cases hik : k = i
        · subst hik
          rw [hempty] at hpromo
          cases hpromo
        · rw [hothers i hik] at hpromo
          obtain ⟨present, hpresent, hmax⟩ := h.limit i request before hi' q promo hpromo
          obtain ⟨promo', hpromo', hmax'⟩ := heffect.maxUses hpresent
          exact ⟨promo', hpromo', hmax'.trans hmax⟩
    · rw [session_started h.separate.holds hnext hlen] at hpromo
      cases hpromo
  used i request program hi id o q promo ho hpromo hstatus hq := by
    rcases Service.runs_of_next hnext hi with ⟨before, hi'⟩ | ⟨rfl, hlen⟩
    · rcases step_effect h.separate.holds hnext with ⟨hrows, hsessions⟩ |
        ⟨k, request', _, heffect, hempty, hothers⟩
      · have hstep := hsessions i request before hi'
        -- an order that is loaded clears the promo row, so it was loaded before
        rcases hstep.order id o ho with hold | ⟨_, _, _, hnone⟩
        · rcases hstep.promo q promo hpromo with hold' | hrow
          · exact h.used i request before hi' id o q promo hold hold' hstatus hq
          · obtain ⟨_, horder, _⟩ := h.separate.loaded i request before hi' id o hold
            rw [(h.ledger q promo hrow).1]
            exact linked_pos horder hstatus hq
        · rw [hnone] at hpromo
          cases hpromo
      · by_cases hik : k = i
        · subst hik
          rw [hempty] at hpromo
          cases hpromo
        · rw [hothers i hik] at ho hpromo
          exact h.used i request before hi' id o q promo ho hpromo hstatus hq
    · rw [session_started h.separate.holds hnext hlen] at hpromo
      cases hpromo

theorem redeemed_run {events : List MarketEvent} {first : MarketPool}
    (h : Redeemed settings first)
    (hseparate : (service settings).passes separate first events = true)
    (hloaded : (service settings).passes loadedUses first events = true)
    (hrun : (service settings).run first events = some final) : Redeemed settings final := by
  refine Service.run_invariant ?_ h (Service.passes_and hseparate hloaded) hrun
  intro middle event final hmiddle hchecks hnext
  simp only [Bool.and_eq_true] at hchecks
  exact hmiddle.next hchecks.1 hchecks.2 hnext

/-- Requests on different orders whose commits write promo counters they have
    read as committed: every promo code counts the orders that use it, and
    these are at most `max_uses`. -/
theorem promo_uses_exact (hrows : Stored rows₀) (hledger : PromoLedger rows₀)
    {events : List MarketEvent} (hrun : (service settings).run (start rows₀) events = some pool)
    (hseparate : (service settings).passes separate (start rows₀) events = true)
    (hloaded : (service settings).passes loadedUses (start rows₀) events = true)
    (q : Uuid) (promo : PromoCode) (hpromo : (rowsOf pool).lookup (.promo q) = some promo) :
    promo.currentUses = linked (rowsOf pool) q ∧ linked (rowsOf pool) q ≤ promo.maxUses := by
  have hstart : Redeemed settings (start rows₀) := by
    constructor
    · exact separate_initial hrows
    · exact hledger
    · exact fun i request program hi => by simp [Pool.Runs] at hi
    · exact fun i request program hi => by simp [Pool.Runs] at hi
  exact (redeemed_run hstart hseparate hloaded hrun).ledger q promo hpromo

/-- What `PromoLedger` asks of one row. -/
def countedRow (rows : Rows) : (k : Key) → Row k → Bool
  | .promo q, promo => decide (promo.currentUses = linked rows q) &&
      decide (linked rows q ≤ promo.maxUses)
  | _, _ => true

theorem promoLedger_of_check
    (h : (rows.entries.all fun entry => countedRow rows entry.1 entry.2) = true) :
    PromoLedger rows := by
  intro q promo hpromo
  have hentry := List.all_eq_true.mp h ⟨.promo q, promo⟩ (AList.mem_lookup_iff.mp hpromo)
  simpa only [countedRow, Bool.and_eq_true, decide_eq_true_eq] using hentry

/-- Two users order different products with the same promo code; the second
    reads the code after the order of the first has been committed. -/
def redeemInTurn : List MarketEvent :=
  [.start (.createOrder 2 (sampleOrder 10 (some "KETTLE"))),
    .start (.createOrder 4 (sampleOrder 11 (some "KETTLE")))] ++
    List.replicate 8 (sampleStep 0 []) ++
    [sampleStep 0 [200], sampleStep 0 [201], sampleStep 0 [202]] ++
    List.replicate 4 (sampleStep 0 []) ++ List.replicate 7 (sampleStep 1 [])

theorem promo_uses_exact_sample : ∃ (pool : MarketPool) (promo : PromoCode),
    (service ⟨5⟩).run (start sampleRows) redeemInTurn = some pool ∧
      (rowsOf pool).lookup (.promo 20) = some promo ∧ promo.currentUses = 1 ∧
      promo.currentUses = linked (rowsOf pool) 20 ∧ linked (rowsOf pool) 20 ≤ promo.maxUses := by
  have hrun : ((service ⟨5⟩).run (start sampleRows) redeemInTurn).isSome := by
    decide +kernel
  have hpromo : (rowsOf (((service ⟨5⟩).run (start sampleRows) redeemInTurn).get hrun)).lookup
      (.promo 20) = some ⟨"KETTLE", .fixedAmount, 5, 0, 1, 1, 0, 10, true⟩ := by
    decide +kernel +revert
  exact ⟨_, _, (Option.some_get hrun).symm, hpromo, rfl,
    promo_uses_exact (stored_of_check (by decide +kernel))
      (promoLedger_of_check (by decide +kernel)) (Option.some_get hrun).symm
      (by decide +kernel) (by decide +kernel) 20 _ hpromo⟩

/-- Both read the promo code before either commits. -/
def redeemTogether : List MarketEvent :=
  [.start (.createOrder 2 (sampleOrder 10 (some "KETTLE"))),
    .start (.createOrder 4 (sampleOrder 11 (some "KETTLE")))] ++
    List.replicate 6 (sampleStep 0 []) ++ List.replicate 6 (sampleStep 1 []) ++
    List.replicate 2 (sampleStep 0 []) ++
    [sampleStep 0 [200], sampleStep 0 [201], sampleStep 0 [202]] ++
    List.replicate 4 (sampleStep 0 []) ++ List.replicate 2 (sampleStep 1 []) ++
    [sampleStep 1 [300], sampleStep 1 [301], sampleStep 1 [302]] ++
    List.replicate 4 (sampleStep 1 [])

/-- A promo code for one use serves two orders, and its counter says one. -/
theorem promo_overused : ∃ (pool : MarketPool) (promo : PromoCode),
    (service ⟨5⟩).run (start sampleRows) redeemTogether = some pool ∧
      (service ⟨5⟩).passes separate (start sampleRows) redeemTogether = true ∧
      pool.isRunning 0 = false ∧ pool.isRunning 1 = false ∧
      (rowsOf pool).lookup (.promo 20) = some promo ∧ promo.currentUses = 1 ∧
      promo.maxUses = 1 ∧ linked (rowsOf pool) 20 = 2 := by
  have hrun : ((service ⟨5⟩).run (start sampleRows) redeemTogether).isSome := by
    decide +kernel
  have hpromo : (rowsOf (((service ⟨5⟩).run (start sampleRows) redeemTogether).get hrun)).lookup
      (.promo 20) = some ⟨"KETTLE", .fixedAmount, 5, 0, 1, 1, 0, 10, true⟩ := by
    decide +kernel +revert
  refine ⟨_, _, (Option.some_get hrun).symm, by decide +kernel, ?_, ?_, hpromo, rfl, rfl, ?_⟩
  · decide +kernel +revert
  · decide +kernel +revert
  · decide +kernel +revert

end SoaHomework.Marketplace

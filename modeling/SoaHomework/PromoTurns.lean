import SoaHomework.MarketAmounts

/-!
# The uses of promo codes, one request after another

Requests one after another keep the promo counters without a condition: what a
session has read of a promo code is committed when it writes the counter. The
step in which an order gives up its promo code therefore gives exactly one use
back, and the guards of the decrements never hold one back.
-/

namespace SoaHomework.Marketplace

open StatementProgram

/-- The order counts as a use of the promo code. -/
def UsesPromo (rows : Rows) (id q : Uuid) : Prop :=
  ∃ o : Order, rows.lookup (.order id) = some o ∧ o.status ≠ .canceled ∧ o.promoCodeID = some q

variable {shown : Set Int} {settings : Settings} {rows₀ rows rows' written : Rows}
  {session : Session} {request : Request} {pool final : MarketPool} {event : MarketEvent}
  {id q : Uuid} {promo : PromoCode}

theorem UsesPromo.weight (h : UsesPromo rows id q) :
    rows.weightAt (linkedWeight q) (.order id) = 1 := by
  obtain ⟨o, ho, hstatus, hq⟩ := h
  rw [AList.weightAt_of_lookup ho]
  simp only [linkedWeight, hstatus, hq, ne_eq, not_false_eq_true, and_self, if_true]

theorem weight_of_not_usesPromo (h : ¬ UsesPromo rows id q) :
    rows.weightAt (linkedWeight q) (.order id) = 0 := by
  cases ho : rows.lookup (.order id) with
  | none => exact AList.weightAt_of_lookup_none ho
  | some o =>
      rw [AList.weightAt_of_lookup ho]
      exact if_neg fun hlinked => h ⟨o, ho, hlinked⟩

/-- A request writes no other order than the one it acts on. -/
theorem Effect.targetWrite (h : Effect session written rows rows' request)
    (htarget : request.target = some id) :
    ∃ change uses, OrderWrite written rows rows' id change uses := by
  cases h with
  | createProduct => cases htarget
  | writeProduct _ _ hrequest =>
      rcases hrequest with ⟨_, _, rfl⟩ | ⟨_, rfl⟩
      · cases htarget
      · cases htarget
  | createPromoCode => cases htarget
  | createOrder => cases htarget
  | updateOrder _ _ _ _ _ _ _ _ _ hwrite =>
      cases htarget
      exact ⟨_, _, hwrite⟩
  | cancelOrder _ _ _ _ _ _ hwrite =>
      cases htarget
      exact ⟨_, _, hwrite⟩

/-- The step in which an order gives up its promo code gives one use back. -/
theorem Effect.released (h : Effect session written rows rows' request)
    (hledger : PromoLedger rows) (hledger' : PromoLedger rows')
    (hpromo : rows.lookup (.promo q) = some promo) (hbefore : UsesPromo rows id q)
    (hafter : ¬ UsesPromo rows' id q) :
    rows'.lookup (.promo q) = some { promo with currentUses := promo.currentUses - 1 } := by
  have htarget : request.target = some id := by
    by_contra hne
    obtain ⟨o, ho, hlinked⟩ := hbefore
    refine hafter ⟨o, ?_, hlinked⟩
    rw [(h.order_kept (mem_of_lookup ho) hne).1, ho]
  obtain ⟨change, uses, hwrite⟩ := h.targetWrite htarget
  obtain ⟨n, hn⟩ := h.terms hpromo
  have hlinked := linked_of_others (q := q) id fun id' hid => (hwrite.others id' hid).1
  rw [hbefore.weight, weight_of_not_usesPromo hafter] at hlinked
  have hcount : promo.currentUses = linked rows q := (hledger q promo hpromo).1
  have hcount' : n = linked rows' q := (hledger' q _ hn).1
  rw [hn, show n = promo.currentUses - 1 by omega]

/-- An order that costs less than the minimum after its update has given up its
    promo code. -/
theorem Commit.below_minimum {subject : Uuid} {payload : OrderUpdateRequest}
    (h : Commit rows written (.updateOrder subject id payload))
    (hpromo : rows.lookup (.promo q) = some promo)
    (hbelow : gross (written ∪ rows) id < promo.minOrderAmount) :
    ¬ UsesPromo (written ∪ rows) id q := by
  cases h with
  | writeProduct _ _ _ _ _ hrequest =>
      rcases hrequest with ⟨_, hrequest⟩ | hrequest
      · cases hrequest
      · cases hrequest
  | updateOrder user order assigned items _ hrow _ _ _ hlink _ hbilled horder hitems hnew _ =>
      rintro ⟨o, ho, _, hq⟩
      rw [filter_replaced hnew] at hitems
      rw [gross_of_items (RowStore.lookup_union_of_some hitems)] at hbelow
      rw [RowStore.lookup_union_or, hrow, horder, Option.some.injEq] at ho
      subst ho
      cases hbilled with
      | plain hnone =>
          have hdropped : (assignOrder order assigned order).promoCodeID = none := by
            cases hold : order.promoCodeID with
            | none => rw [assignOrder_promo (hnone.trans hold.symm), hold]
            | some q' => exact assignOrder_dropped hold hnone
          rw [hdropped] at hq
          cases hq
      | discounted q' promo' hassigned hrow' hdiscount _ =>
          -- a kept promo code has been found to be at least at its minimum
          have hsame : assigned.promoCodeID = order.promoCodeID := by
            rcases hlink with hsame | hnone
            · exact hsame
            · rw [hnone] at hassigned
              cases hassigned
          rw [assignOrder_promo hsame, ← hsame, hassigned, Option.some.injEq] at hq
          subst hq
          rw [hpromo, Option.some.injEq] at hrow'
          subst hrow'
          exact absurd (exactDiscount_of_ok hdiscount).1 (not_le.mpr hbelow)

/-! ## Runs -/

theorem redeemed_start (hrows : Stored rows₀) (hledger : PromoLedger rows₀) :
    Redeemed settings (start rows₀) where
  separate := separate_initial hrows
  ledger := hledger
  limit i request program hi := by simp [Pool.Runs] at hi
  used i request program hi := by simp [Pool.Runs] at hi

theorem redeemed_steps {first : MarketPool} (hfirst : Sequential shown settings first)
    (hredeemed : Redeemed settings first)
    (h : (service settings).Steps (oneByOne shown) first pool) :
    Sequential shown settings pool ∧ Redeemed settings pool :=
  h.invariant (P := fun pool => Sequential shown settings pool ∧ Redeemed settings pool)
    (fun _ event _ hpool hturn hnext => ⟨hpool.1.next hturn hnext,
      hpool.2.next (separate_of_inTurn hturn.1) (hpool.1.loadedUses event) hnext⟩)
    ⟨hfirst, hredeemed⟩

/-- In every state that requests one after another reach: every promo code
    counts the orders that use it, at most `max_uses`; the counter that an
    update or a cancellation has read is positive; the step in which an order
    gives up its promo code gives one use back, and an update below the minimum
    is such a step; and an update is refused with `PROMO_CODE_INVALID` only when
    the promo code is inactive or not valid at a time that the clock has
    shown. -/
theorem promo_uses_one_by_one (hrows : Stored rows₀) (hledger : PromoLedger rows₀)
    (hclock : 0 ∈ shown)
    (hreachable : (service settings).Steps (oneByOne shown) (start rows₀) pool) :
    (∀ q promo, (rowsOf pool).lookup (.promo q) = some promo →
      0 ≤ promo.currentUses ∧ promo.currentUses ≤ promo.maxUses ∧
        promo.currentUses = linked (rowsOf pool) q) ∧
    (∀ i request program, pool.Runs i request program → ∀ id o q promo,
      (sessionOf pool i).order = some (id, o) → (sessionOf pool i).promo = some (q, promo) →
      o.status ≠ .canceled → o.promoCodeID = some q → 0 < promo.currentUses) ∧
    (∀ event final, oneByOne shown pool event →
      (service settings).next pool event = some final → ∀ id q promo,
      (rowsOf pool).lookup (.promo q) = some promo → UsesPromo (rowsOf pool) id q →
      ¬ UsesPromo (rowsOf final) id q →
      (rowsOf final).lookup (.promo q) =
        some { promo with currentUses := promo.currentUses - 1 }) ∧
    (∀ i subject id payload next generated final,
      pool.Runs i (.updateOrder subject id payload) (.step .commit next) →
      (service settings).next pool (.step i (.proceed generated)) = some final → ∀ q promo,
      (rowsOf pool).lookup (.promo q) = some promo →
      gross (rowsOf final) id < promo.minOrderAmount → ¬ UsesPromo (rowsOf final) id q) ∧
    (∀ i subject id payload o q promo,
      pool.Runs i (.updateOrder subject id payload) (.fail (.api .promoCodeInvalid)) →
      (rowsOf pool).lookup (.order id) = some o → o.promoCodeID = some q →
      (rowsOf pool).lookup (.promo q) = some promo →
      promo.active = false ∨
        ∃ now ∈ shown, ¬ (promo.validFrom ≤ now ∧ now ≤ promo.validUntil)) := by
  have hstart : Sequential shown settings (start rows₀) := sequential_start hrows hclock
  obtain ⟨hpool, hredeemed⟩ := redeemed_steps hstart (redeemed_start hrows hledger) hreachable
  refine ⟨fun q promo hpromo => ?_, hredeemed.used, ?_, ?_, ?_⟩
  · obtain ⟨hcount, hlimit⟩ := hredeemed.ledger q promo hpromo
    have hnonneg : 0 ≤ linked (rowsOf pool) q :=
      AList.total_nonneg fun k row _ => linkedWeight_nonneg q k row
    omega
  · intro event final hturn hnext id q promo hpromo hbefore hafter
    have hledger' := (hredeemed.next (separate_of_inTurn hturn.1) (hpool.loadedUses event)
      hnext).ledger
    rcases hpool.step hnext with hsame | ⟨i, request, _, heffect, _⟩
    · rw [hsame] at hafter
      exact absurd hbefore hafter
    · exact heffect.released hredeemed.ledger hledger' hpromo hbefore hafter
  · intro i subject id payload next generated final hruns hnext q promo hpromo hbelow
    rw [rows_of_proceed hruns hnext] at hbelow ⊢
    exact (hpool.commit hruns).below_minimum hpromo hbelow
  · intro i subject id payload o q promo hruns ho hq hpromo
    exact hpool.turns.failed hruns _ rfl rfl subject id payload o q promo rfl ho hq hpromo

/-- The promo code asks for a minimum of 10. -/
def minimumRows : Rows :=
  sampleRows.insert (.promo 20) ⟨"KETTLE", .fixedAmount, 5, 10, 1, 0, 0, 10, true⟩

/-- The second user orders two kettles with the promo code, and then changes the
    order to one kettle. -/
def orderAndReduce : List MarketEvent :=
  orderWithCode "KETTLE" ++
    [.start (.updateOrder 2 200 ⟨[⟨10, 1, by decide, by decide⟩], by decide, by decide⟩)] ++
    List.replicate 10 (sampleStep 1 []) ++
    [sampleStep 1 [301], sampleStep 1 [], sampleStep 1 [302]] ++
    List.replicate 4 (sampleStep 1 [])

/-- The second user orders two kettles with the promo code, and changes the order when the
    code has run out. -/
def orderAndReduceLate : List MarketEvent :=
  orderWithCode "KETTLE" ++
    [.outside ⟨20⟩,
      .start (.updateOrder 2 200 ⟨[⟨10, 1, by decide, by decide⟩], by decide, by decide⟩)] ++
    List.replicate 7 (sampleStep 1 [])

/-- The order that the request updates, and what it still has to do. -/
def updating (pool : MarketPool) (i : Nat) : Option (Uuid × Handler Response) :=
  match pool.threads[i]? with
  | some ⟨.updateOrder _ id _, .running program⟩ => some (id, program)
  | _ => none

def commits : Handler Response → Bool
  | .step .commit _ => true
  | _ => false

def refusesPromo : Handler Response → Bool
  | .fail (.api .promoCodeInvalid) => true
  | _ => false

theorem runs_of_updating {i : Nat} {program : Handler Response}
    (h : updating pool i = some (id, program)) :
    ∃ subject payload, pool.Runs i (.updateOrder subject id payload) program := by
  unfold updating at h
  split at h
  · rename_i hthread
    cases h
    exact ⟨_, _, hthread⟩
  · cases h

theorem step_of_commits {program : Handler Response} (h : commits program = true) :
    ∃ next, program = .step .commit next := by
  unfold commits at h
  split at h
  · exact ⟨_, rfl⟩
  · cases h

theorem fail_of_refusesPromo {program : Handler Response} (h : refusesPromo program = true) :
    program = .fail (.api .promoCodeInvalid) := by
  unfold refusesPromo at h
  split at h
  · rfl
  · cases h

/-- The promo code of `minimumRows` while the order uses it. -/
def usedPromo : PromoCode := ⟨"KETTLE", .fixedAmount, 5, 10, 1, 1, 0, 10, true⟩

/-- Before the commit of the change. -/
theorem orderAndReduce_commits : ∃ (pool final : MarketPool) (subject : Uuid)
    (payload : OrderUpdateRequest) (next : Answer .commit → Handler Response),
    (service ⟨5⟩).run (start minimumRows) (orderAndReduce.take 30) = some pool ∧
      (service ⟨5⟩).next pool (sampleStep 1 []) = some final ∧
      pool.Runs 1 (.updateOrder subject 200 payload) (.step .commit next) ∧
      (rowsOf pool).lookup (.promo 20) = some usedPromo ∧
      (rowsOf pool).lookup (.order 200) = some ⟨2, .created, some 20, 9, 5⟩ ∧
      (∃ o, (sessionOf pool 1).order = some (200, o) ∧ o.status ≠ .canceled ∧
        o.promoCodeID = some 20) ∧
      (sessionOf pool 1).promo = some (20, usedPromo) ∧ gross (rowsOf final) 200 < 10 := by
  obtain ⟨pool, hrun, hupdating, hpromo, horder, hsession, hloaded, hfinal⟩ :=
    Service.exists_run (fun pool : MarketPool =>
      (updating pool 1).any (fun update => update.1 = 200 ∧ commits update.2 = true) ∧
        ((rowsOf pool).lookup (.promo 20) : Option PromoCode) = some usedPromo ∧
        ((rowsOf pool).lookup (.order 200) : Option Order) =
          some ⟨2, .created, some 20, 9, 5⟩ ∧
        (sessionOf pool 1).order.any (fun order =>
          order.1 = 200 ∧ order.2.status ≠ .canceled ∧ order.2.promoCodeID = some 20) = true ∧
        (sessionOf pool 1).promo = some (20, usedPromo) ∧
        ((service ⟨5⟩).next pool (sampleStep 1 [])).any
          (fun final => gross (rowsOf final) 200 < 10) = true)
    (show (((service ⟨5⟩).run (start minimumRows) (orderAndReduce.take 30)).any _) = true by
      decide +kernel)
  obtain ⟨⟨_, program⟩, hupdating, hprogram⟩ := (Option.any_eq_true _ _).mp hupdating
  obtain ⟨rfl, hcommits⟩ := of_decide_eq_true hprogram
  obtain ⟨subject, payload, hruns⟩ := runs_of_updating hupdating
  obtain ⟨next, rfl⟩ := step_of_commits hcommits
  obtain ⟨final, hnext, hbelow⟩ := (Option.any_eq_true _ _).mp hfinal
  obtain ⟨⟨_, o⟩, ho, hopen⟩ := (Option.any_eq_true _ _).mp hsession
  obtain ⟨rfl, hopen⟩ := of_decide_eq_true hopen
  exact ⟨pool, final, subject, payload, next, hrun, hnext, hruns, hpromo, horder,
    ⟨o, ho, hopen⟩, hloaded, of_decide_eq_true hbelow⟩

/-- After the refusal of the change. -/
theorem orderAndReduceLate_fails : ∃ (pool : MarketPool) (subject : Uuid)
    (payload : OrderUpdateRequest),
    (service ⟨5⟩).run (start minimumRows) orderAndReduceLate = some pool ∧
      pool.Runs 1 (.updateOrder subject 200 payload) (.fail (.api .promoCodeInvalid)) ∧
      (rowsOf pool).lookup (.promo 20) = some usedPromo ∧
      (rowsOf pool).lookup (.order 200) = some ⟨2, .created, some 20, 9, 5⟩ := by
  obtain ⟨pool, hrun, hupdating, hpromo, horder⟩ :=
    Service.exists_run (fun pool : MarketPool =>
      (updating pool 1).any (fun update => update.1 = 200 ∧ refusesPromo update.2 = true) ∧
        ((rowsOf pool).lookup (.promo 20) : Option PromoCode) = some usedPromo ∧
        ((rowsOf pool).lookup (.order 200) : Option Order) =
          some ⟨2, .created, some 20, 9, 5⟩)
    (show (((service ⟨5⟩).run (start minimumRows) orderAndReduceLate).any _) = true by
      decide +kernel)
  obtain ⟨⟨_, program⟩, hupdating, hprogram⟩ := (Option.any_eq_true _ _).mp hupdating
  obtain ⟨rfl, hrefuses⟩ := of_decide_eq_true hprogram
  obtain ⟨subject, payload, hruns⟩ := runs_of_updating hupdating
  obtain rfl := fail_of_refusesPromo hrefuses
  exact ⟨pool, subject, payload, hrun, hruns, hpromo, horder⟩

/-- The use is counted until the commit of the change gives it back; with the code run out
    the change is refused for that. -/
theorem promo_uses_one_by_one_sample :
    (∃ pool final : MarketPool,
      (service ⟨5⟩).run (start minimumRows) (orderAndReduce.take 30) = some pool ∧
      (service ⟨5⟩).next pool (sampleStep 1 []) = some final ∧
      (rowsOf pool).lookup (.promo 20) = some usedPromo ∧
      0 < usedPromo.currentUses ∧ usedPromo.currentUses ≤ usedPromo.maxUses ∧
      usedPromo.currentUses = linked (rowsOf pool) 20 ∧ ¬ UsesPromo (rowsOf final) 200 20 ∧
      (rowsOf final).lookup (.promo 20) =
        some { usedPromo with currentUses := usedPromo.currentUses - 1 }) ∧
    ∃ pool : MarketPool,
      (service ⟨5⟩).run (start minimumRows) orderAndReduceLate = some pool ∧
      (rowsOf pool).lookup (.promo 20) = some usedPromo ∧
      (usedPromo.active = false ∨ ∃ now ∈ (Set.univ : Set Int),
        ¬ (usedPromo.validFrom ≤ now ∧ now ≤ usedPromo.validUntil)) := by
  have hstored : Stored minimumRows := stored_of_check (by decide +kernel)
  have hledger : PromoLedger minimumRows := promoLedger_of_check (by decide +kernel)
  constructor
  · obtain ⟨pool, final, subject, payload, next, hrun, hnext, hruns, hpromo, horder,
      ⟨o, ho, hopen, hcode⟩, hloaded, hbelow⟩ := orderAndReduce_commits
    obtain ⟨hcounts, hused, hreleased, hminimum, _⟩ := promo_uses_one_by_one hstored hledger
      (Set.mem_univ 0) (steps_of_inTurn (by decide +kernel) hrun)
    obtain ⟨_, hlimit, hcount⟩ := hcounts 20 _ hpromo
    have hpositive := hused 1 _ _ hruns 200 o 20 _ ho hloaded hopen hcode
    have hunused := hminimum 1 subject 200 payload next [] final hruns hnext 20 _ hpromo hbelow
    have hturn : oneByOne Set.univ pool (sampleStep 1 []) := ⟨rfl, fun _ heq => by cases heq⟩
    have hback := hreleased _ final hturn hnext 200 20 _ hpromo
      ⟨_, horder, by decide, rfl⟩ hunused
    exact ⟨pool, final, hrun, hnext, hpromo, hpositive, hlimit, hcount, hunused, hback⟩
  · obtain ⟨pool, subject, payload, hrun, hruns, hpromo, horder⟩ := orderAndReduceLate_fails
    obtain ⟨_, _, _, _, hrefused⟩ := promo_uses_one_by_one hstored hledger (Set.mem_univ 0)
      (steps_of_inTurn (by decide +kernel) hrun)
    exact ⟨pool, hrun, hpromo, hrefused 1 subject 200 payload _ 20 _ hruns horder rfl hpromo⟩

end SoaHomework.Marketplace

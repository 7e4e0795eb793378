import SoaHomework.MarketRuns
import SoaHomework.ServiceHistory
import SoaHomework.UpdateChains

/-!
# The life of an order

Requests on one order may overlap, and one that commits late writes over what
another has committed meanwhile. What it writes are only the attributes it has
changed, and no handler gives an order another status than `CANCELED`. So a
session can be behind the committed order in one way only (`OrderMoves`), and in
every run an order keeps its owner, is canceled at most once and never revived.
-/

namespace SoaHomework.Marketplace

open StatementProgram

variable {settings : Settings} {rows₀ rows rows' written : Rows} {session : Session}
  {request : Request} {pool final : MarketPool} {event : MarketEvent}

/-- What can become of an order row. -/
structure OrderMoves (o o' : Order) : Prop where
  owner : o'.userID = o.userID
  status : o'.status = o.status ∨ (o.status.isActive = true ∧ o'.status = .canceled)
  promo : o'.promoCodeID = o.promoCodeID ∨ o'.promoCodeID = none

theorem OrderMoves.refl (o : Order) : OrderMoves o o := ⟨rfl, Or.inl rfl, Or.inl rfl⟩

theorem OrderMoves.trans {o o' o'' : Order} (h : OrderMoves o o') (h' : OrderMoves o' o'') :
    OrderMoves o o'' where
  owner := h'.owner.trans h.owner
  status := by
    rcases h'.status with hsame | ⟨hactive, hcanceled⟩
    · rw [hsame]
      exact h.status
    · rcases h.status with hsame' | ⟨hactive', _⟩
      · exact Or.inr ⟨hsame' ▸ hactive, hcanceled⟩
      · exact Or.inr ⟨hactive', hcanceled⟩
  promo := by
    rcases h'.promo with hsame | hnone
    · rw [hsame]
      exact h.promo
    · exact Or.inr hnone

/-- The order that a session has loaded has moved on to the committed one. -/
def Behind (session : Session) (rows : Rows) : Prop :=
  ∀ id loaded, session.order = some (id, loaded) →
    ∃ present, rows.lookup (.order id) = some present ∧ OrderMoves loaded present

/-! ## What a commit does to an order -/

/-- Writing the attributes that an update has changed. -/
theorem orderMoves_assign {loaded assigned present : Order} {uses : Option (Uuid × Int)}
    (hstatus : assigned.status = loaded.status) (hpromo : PromoKeep session loaded assigned uses) :
    OrderMoves present (assignOrder loaded assigned present) :=
  ⟨assignOrder_userID _ _ _, Or.inl (assignOrder_status hstatus), hpromo.assignOrder_promo present⟩

/-- Writing a cancellation. -/
theorem orderMoves_cancel {loaded present : Order} (hactive : loaded.status.isActive = true)
    (hmoves : OrderMoves loaded present) :
    OrderMoves present (assignOrder loaded { loaded with status := .canceled } present) := by
  obtain ⟨hcanceled, hpromo⟩ : (assignOrder loaded { loaded with status := .canceled }
      present).status = .canceled ∧ _ := assignOrder_canceled hactive
  refine ⟨assignOrder_userID _ _ _, ?_, Or.inl hpromo⟩
  rcases hmoves.status with hsame | ⟨_, hpresent⟩
  · exact Or.inr ⟨hsame ▸ hactive, hcanceled⟩
  · exact Or.inl (hcanceled.trans hpresent.symm)

/-- A cancellation writes the status alone. -/
theorem stored_cancel {loaded present : Order} (hactive : loaded.status.isActive = true) :
    (assignOrder loaded { loaded with status := .canceled } present).stored =
      { present with status := .canceled }.stored := by
  have hstatus : OrderStatus.canceled ≠ loaded.status := by
    intro heq
    rw [← heq] at hactive
    cases hactive
  have hne : { loaded with status := .canceled } ≠ loaded :=
    fun heq => hstatus (congrArg Order.status heq)
  rw [assignOrder, if_neg hne, Order.stored_stored]
  simp [OrderChange.apply, orderChange, hstatus]

/-- A commit moves the orders that are there. -/
theorem Effect.orderMoves (h : Effect session written rows rows' request)
    (hbehind : Behind session rows) {id : Uuid} {o : Order}
    (ho : rows.lookup (.order id) = some o) :
    ∃ o', rows'.lookup (.order id) = some o' ∧ OrderMoves o o' := by
  have hkept : rows'.lookup (.order id) = rows.lookup (.order id) →
      ∃ o', rows'.lookup (.order id) = some o' ∧ OrderMoves o o' :=
    fun heq => ⟨o, heq.trans ho, .refl o⟩
  cases h with
  | createProduct _ _ _ _ _ hothers => exact hkept (hothers _ (by simp))
  | writeProduct _ _ _ _ _ hothers => exact hkept (hothers _ (by simp))
  | createPromoCode _ _ _ _ _ _ hothers => exact hkept (hothers _ (by simp))
  | createOrder _ id' _ _ hfresh hwrite =>
      refine hkept (hwrite.others id ?_).1
      rintro rfl
      rw [hfresh] at ho
      cases ho
  | @updateOrder _ id' _ _ loaded assigned _ _ _ _ _ _ hwrite _ horder hstatus _ _ _ hpromo =>
      by_cases hid : id = id'
      · subst hid
        rw [ho] at horder
        exact ⟨_, horder, orderMoves_assign hstatus hpromo⟩
      · exact hkept (hwrite.others id hid).1
  | @cancelOrder _ id' _ loaded _ hloaded _ hactive hwrite horder _ _ =>
      by_cases hid : id = id'
      · subst hid
        rw [ho] at horder
        obtain ⟨present, hpresent, hmoves⟩ := hbehind id loaded hloaded
        obtain rfl := Option.some.inj (ho.symm.trans hpresent)
        exact ⟨_, horder, orderMoves_cancel hactive hmoves⟩
      · exact hkept (hwrite.others id hid).1

/-- An order that a commit adds is a new one of the request's subject. -/
theorem Effect.born (h : Effect session written rows rows' request) {id : Uuid} {o : Order}
    (hnone : rows.lookup (.order id) = none) (ho : rows'.lookup (.order id) = some o) :
    o.status = .created ∧ ∃ payload, request = .createOrder o.userID payload := by
  have hkept : rows'.lookup (.order id) ≠ rows.lookup (.order id) := by
    rw [hnone, ho]
    exact Option.some_ne_none o
  have hmap : ∀ f : Order → Order,
      rows'.lookup (.order id) ≠ (rows.lookup (.order id)).map f := by
    intro f
    rw [hnone, ho]
    exact Option.some_ne_none o
  cases h with
  | createProduct _ _ _ _ _ hothers => exact absurd (hothers _ (by simp)) hkept
  | writeProduct _ _ _ _ _ hothers => exact absurd (hothers _ (by simp)) hkept
  | createPromoCode _ _ _ _ _ _ hothers => exact absurd (hothers _ (by simp)) hkept
  | @createOrder _ payload _ id' order _ _ hwrite _ horder _ _ huser hstatus =>
      by_cases hid : id = id'
      · subst hid
        obtain rfl := Option.some.inj (ho.symm.trans horder)
        exact ⟨hstatus, payload, by rw [huser]⟩
      · exact absurd (hwrite.others id hid).1 hkept
  | @updateOrder _ id' _ _ _ _ _ _ _ _ _ _ hwrite _ horder =>
      by_cases hid : id = id'
      · subst hid
        exact absurd horder (hmap _)
      · exact absurd (hwrite.others id hid).1 hkept
  | @cancelOrder _ id' _ _ _ _ _ _ hwrite horder =>
      by_cases hid : id = id'
      · subst hid
        exact absurd horder (hmap _)
      · exact absurd (hwrite.others id hid).1 hkept

/-- A commit leaves an order that no session has loaded as `CREATED`, but for its
    status. -/
theorem Effect.orderSettled (h : Effect session written rows rows' request) {id : Uuid}
    {o : Order} (ho : rows.lookup (.order id) = some o)
    (hloaded : ∀ loaded, session.order = some (id, loaded) → loaded.status ≠ .created) :
    ∃ o', rows'.lookup (.order id) = some o' ∧
      o'.stored = { o with status := o'.status }.stored ∧
      rows'.lookup (.items id) = rows.lookup (.items id) := by
  have hkept : rows'.lookup (.order id) = rows.lookup (.order id) →
      rows'.lookup (.items id) = rows.lookup (.items id) →
      ∃ o', rows'.lookup (.order id) = some o' ∧
        o'.stored = { o with status := o'.status }.stored ∧
        rows'.lookup (.items id) = rows.lookup (.items id) :=
    fun heq hitems => ⟨o, heq.trans ho, rfl, hitems⟩
  cases h with
  | createProduct _ _ _ _ _ hothers => exact hkept (hothers _ (by simp)) (hothers _ (by simp))
  | writeProduct _ _ _ _ _ hothers => exact hkept (hothers _ (by simp)) (hothers _ (by simp))
  | createPromoCode _ _ _ _ _ _ hothers =>
      exact hkept (hothers _ (by simp)) (hothers _ (by simp))
  | createOrder _ id' _ _ hfresh hwrite =>
      have hid : id ≠ id' := by
        rintro rfl
        rw [hfresh] at ho
        cases ho
      exact hkept (hwrite.others id hid).1 (hwrite.others id hid).2
  | @updateOrder _ id' _ _ loaded _ _ _ hload _ hcreated _ hwrite =>
      have hid : id ≠ id' := by
        rintro rfl
        exact hloaded loaded hload hcreated
      exact hkept (hwrite.others id hid).1 (hwrite.others id hid).2
  | @cancelOrder _ id' _ loaded _ _ _ hactive hwrite horder hitems _ =>
      by_cases hid : id = id'
      · subst hid
        rw [ho] at horder
        refine ⟨_, horder, ?_, hitems⟩
        rw [(assignOrder_canceled hactive).1]
        exact stored_cancel hactive
      · exact hkept (hwrite.others id hid).1 (hwrite.others id hid).2

/-! ## Runs -/

/-- Every running request has loaded its order as it was at some time. -/
structure Followed (settings : Settings) (pool : MarketPool) : Prop where
  holds : discipline.Holds (service settings) pool
  behind : ∀ i request program, pool.Runs i request program →
    Behind (sessionOf pool i) (rowsOf pool)

theorem followed_start (h : Stored rows₀) : Followed settings (start rows₀) where
  holds := holds_start h
  behind i request program hi := by simp [Pool.Runs] at hi

theorem Followed.next (h : Followed settings pool)
    (hnext : (service settings).next pool event = some final) : Followed settings final where
  holds := holds_next h.holds hnext
  behind i request program hi id loaded hloaded := by
    rcases Service.runs_of_next hnext hi with ⟨before, hi'⟩ | ⟨rfl, hlen⟩
    · rcases step_effect h.holds hnext with ⟨hrows, hsessions⟩ |
        ⟨k, request', ⟨choice, next, _, hk⟩, heffect, hempty, hothers⟩
      · rw [hrows]
        rcases (hsessions i request before hi').order id loaded hloaded with hold | ⟨hrow, _⟩
        · exact h.behind i request before hi' id loaded hold
        · exact ⟨loaded, hrow, .refl loaded⟩
      · by_cases hik : k = i
        · subst hik
          rw [hempty] at hloaded
          cases hloaded
        · rw [hothers i hik] at hloaded
          obtain ⟨present, hpresent, hmoves⟩ := h.behind i request before hi' id loaded hloaded
          obtain ⟨o', ho', hmoves'⟩ := heffect.orderMoves (h.behind k request' _ hk) hpresent
          exact ⟨o', ho', hmoves.trans hmoves'⟩
    · -- a session that starts has loaded nothing
      simp only [Service.next, Option.some.injEq] at hnext
      have hunused := (h.holds.unused i (Nat.le_of_eq hlen.symm)).2
      rw [← hnext, sessionOf, hunused] at hloaded
      cases hloaded

theorem Followed.steps (h : Followed settings pool)
    (hsteps : (service settings).Steps Service.anyStep pool final) : Followed settings final :=
  hsteps.invariant (P := Followed settings) (fun _ _ _ h _ hnext => h.next hnext) h

/-- A step moves the orders that are there. -/
theorem Followed.moves (h : Followed settings pool)
    (hnext : (service settings).next pool event = some final) {id : Uuid} {o : Order}
    (ho : (rowsOf pool).lookup (.order id) = some o) :
    ∃ o', (rowsOf final).lookup (.order id) = some o' ∧ OrderMoves o o' := by
  rcases step_effect h.holds hnext with ⟨hrows, _⟩ | ⟨i, request, ⟨_, _, _, hi⟩, heffect, _, _⟩
  · rw [hrows]
    exact ⟨o, ho, .refl o⟩
  · exact heffect.orderMoves (h.behind i request _ hi) ho

/-! ## Orders that have left `CREATED` -/

/-- What remains of an order that was neither created nor canceled: only its status
    may have changed. -/
structure Settled (settings : Settings) (id : Uuid) (o : Order) (items : List OrderItem)
    (pool : MarketPool) : Prop where
  followed : Followed settings pool
  order : ∃ o', (rowsOf pool).lookup (.order id) = some o' ∧ OrderMoves o o' ∧
    o'.stored = { o with status := o'.status }.stored
  items : itemsOf (rowsOf pool) id = items
  unloaded : ∀ i request program, pool.Runs i request program →
    ∀ loaded, (sessionOf pool i).order = some (id, loaded) → loaded.status ≠ .created

theorem stored_withStatus {o o' : Order} (h : o'.stored = o.stored) (status : OrderStatus) :
    { o' with status := status }.stored = { o with status := status }.stored := by
  simp only [Order.stored, Order.mk.injEq] at h ⊢
  exact ⟨h.1, trivial, h.2.2⟩

theorem settled_of_status (h : Followed settings pool) {id : Uuid} {o : Order}
    (ho : (rowsOf pool).lookup (.order id) = some o) (hcreated : o.status ≠ .created)
    (hcanceled : o.status ≠ .canceled) :
    Settled settings id o (itemsOf (rowsOf pool) id) pool where
  followed := h
  order := ⟨o, ho, .refl o, rfl⟩
  items := rfl
  unloaded i request program hi loaded hloaded hstatus := by
    obtain ⟨present, hpresent, hmoves⟩ := h.behind i request program hi id loaded hloaded
    obtain rfl := Option.some.inj (ho.symm.trans hpresent)
    rcases hmoves.status with hsame | ⟨_, hgone⟩
    · exact hcreated (hsame.trans hstatus)
    · exact hcanceled hgone

theorem Settled.next {id : Uuid} {o : Order} {items : List OrderItem}
    (h : Settled settings id o items pool) (hcreated : o.status ≠ .created)
    (hnext : (service settings).next pool event = some final) :
    Settled settings id o items final := by
  obtain ⟨before, hbefore, hmoves, hstored⟩ := h.order
  obtain ⟨after, hafter, hmoves'⟩ := h.followed.moves hnext hbefore
  have hnot : ∀ {o'}, OrderMoves o o' → o'.status ≠ .created := by
    intro o' hmoves hstatus
    rcases hmoves.status with hsame | ⟨_, hcanceled⟩
    · exact hcreated (hsame.symm.trans hstatus)
    · rw [hcanceled] at hstatus
      cases hstatus
  have hrows : after.stored = { o with status := after.status }.stored ∧
      itemsOf (rowsOf final) id = itemsOf (rowsOf pool) id := by
    rcases step_effect h.followed.holds hnext with ⟨hrows, _⟩ |
      ⟨i, request, ⟨_, _, _, hi⟩, heffect, _, _⟩
    · rw [hrows, hbefore] at hafter
      cases hafter
      exact ⟨hstored, by rw [hrows]⟩
    · obtain ⟨o', ho', hsettled, hitems⟩ :=
        heffect.orderSettled hbefore (h.unloaded i request _ hi)
      obtain rfl := Option.some.inj (hafter.symm.trans ho')
      refine ⟨?_, itemsOf_congr hitems⟩
      rw [hsettled]
      exact stored_withStatus hstored after.status
  refine ⟨h.followed.next hnext, ⟨after, hafter, hmoves.trans hmoves', hrows.1⟩,
    hrows.2.trans h.items, fun i request program hi loaded hloaded => ?_⟩
  rcases Service.runs_of_next hnext hi with ⟨old, hi'⟩ | ⟨rfl, hlen⟩
  · rcases step_effect h.followed.holds hnext with ⟨_, hsessions⟩ | ⟨k, _, _, _, hempty, hothers⟩
    · rcases (hsessions i request old hi').order id loaded hloaded with hold | ⟨hrow, _⟩
      · exact h.unloaded i request old hi' loaded hold
      · obtain rfl := Option.some.inj (hbefore.symm.trans hrow)
        exact hnot hmoves
    · by_cases hik : k = i
      · subst hik
        rw [hempty] at hloaded
        cases hloaded
      · rw [hothers i hik] at hloaded
        exact h.unloaded i request old hi' loaded hloaded
  · simp only [Service.next, Option.some.injEq] at hnext
    have hunused := (h.followed.holds.unused i (Nat.le_of_eq hlen.symm)).2
    rw [← hnext, sessionOf, hunused] at hloaded
    cases hloaded

/-! ## The life of an order -/

/-- On the way from `first` to `final` the order `id` has been inserted by the commit
    of a create_order request of its owner, and has moved on to `o`. -/
structure Ordered (settings : Settings) (id : Uuid) (o : Order) (first final : MarketPool) :
    Prop where
  status : o.status = .created ∨ o.status = .canceled
  inserted : ∃ before after event i payload inserted,
    (service settings).Steps Service.anyStep first before ∧
    Commits before event i (.createOrder o.userID payload) ∧
    (service settings).next before event = some after ∧
    (rowsOf before).lookup (.order id) = none ∧
    (rowsOf after).lookup (.order id) = some inserted ∧ OrderMoves inserted o ∧
    (service settings).Steps Service.anyStep after final

theorem Ordered.next {id : Uuid} {o o' : Order} {first : MarketPool}
    (h : Ordered settings id o first pool) (hmoves : OrderMoves o o')
    (hnext : (service settings).next pool event = some final) :
    Ordered settings id o' first final := by
  obtain ⟨hstatus, before, after, event', i, payload, inserted, hbefore, hcommits, hnext', hnone,
    hinserted, hmoved, hafter⟩ := h
  refine ⟨?_, before, after, event', i, payload, inserted, hbefore, ?_, hnext', hnone, hinserted,
    hmoved.trans hmoves, .tail event hafter trivial hnext⟩
  · rcases hmoves.status with hkept | ⟨_, hcanceled⟩
    · rw [hkept]
      exact hstatus
    · exact Or.inr hcanceled
  · rw [hmoves.owner]
    exact hcommits

/-- An order that a step adds. -/
theorem ordered_of_born {first : MarketPool} (h : Followed settings pool)
    (hfirst : (service settings).Steps Service.anyStep first pool)
    (hnext : (service settings).next pool event = some final) {id : Uuid} {o : Order}
    (hnone : (rowsOf pool).lookup (.order id) = none)
    (ho : (rowsOf final).lookup (.order id) = some o) : Ordered settings id o first final := by
  rcases step_effect h.holds hnext with ⟨hrows, _⟩ | ⟨i, request, hcommits, heffect, _, _⟩
  · rw [hrows, hnone] at ho
    cases ho
  · obtain ⟨hstatus, payload, rfl⟩ := heffect.born hnone ho
    exact ⟨Or.inl hstatus, pool, final, event, i, payload, o, hfirst, hcommits, hnext, hnone, ho,
      .refl o, .refl final⟩

/-- What a run makes of the order rows, from any reachable state. An order keeps its
    owner, never returns from `CANCELED`, and loses its promo code or keeps it; once it
    has left `CREATED` only its status moves. Every new order has been inserted by the
    commit of a request. -/
theorem order_lifecycle (hrows : Stored rows₀) {first : MarketPool}
    (hreachable : (service settings).Steps Service.anyStep (start rows₀) first)
    (hsteps : (service settings).Steps Service.anyStep first final) (id : Uuid) :
    (∀ o, (rowsOf first).lookup (.order id) = some o →
      ∃ o', (rowsOf final).lookup (.order id) = some o' ∧ OrderMoves o o' ∧
        (o.status ≠ .created → o.status ≠ .canceled →
          o'.stored = { o with status := o'.status }.stored ∧
            itemsOf (rowsOf final) id = itemsOf (rowsOf first) id)) ∧
      ((rowsOf first).lookup (.order id) = none →
        ∀ o', (rowsOf final).lookup (.order id) = some o' →
          Ordered settings id o' first final) := by
  have hfirst : Followed settings first := (followed_start hrows).steps hreachable
  refine ⟨fun o ho => ?_, fun hnone => ?_⟩
  · obtain ⟨_, o', ho', hmoves⟩ := hsteps.invariant (P := fun pool => Followed settings pool ∧
      ∃ o', (rowsOf pool).lookup (.order id) = some o' ∧ OrderMoves o o')
      (fun middle event final hmiddle _ hnext => by
        obtain ⟨hfollowed, o₁, ho₁, hmoves₁⟩ := hmiddle
        obtain ⟨o₂, ho₂, hmoves₂⟩ := hfollowed.moves hnext ho₁
        exact ⟨hfollowed.next hnext, o₂, ho₂, hmoves₁.trans hmoves₂⟩)
      ⟨hfirst, o, ho, .refl o⟩
    refine ⟨o', ho', hmoves, fun hcreated hcanceled => ?_⟩
    have hsettled := hsteps.invariant
      (fun _ _ _ hmiddle _ hnext => Settled.next hmiddle hcreated hnext)
      (settled_of_status hfirst ho hcreated hcanceled)
    obtain ⟨o'', ho'', _, hstored⟩ := hsettled.order
    obtain rfl := Option.some.inj (ho'.symm.trans ho'')
    exact ⟨hstored, hsettled.items⟩
  · refine (hsteps.invariant (P := fun pool => Followed settings pool ∧
      (service settings).Steps Service.anyStep first pool ∧
      ∀ o', (rowsOf pool).lookup (.order id) = some o' → Ordered settings id o' first pool)
      (fun middle event final hmiddle _ hnext => ?_) ⟨hfirst, .refl first, fun o' ho' => ?_⟩).2.2
    · obtain ⟨hfollowed, hbefore, hordered⟩ := hmiddle
      refine ⟨hfollowed.next hnext, .tail event hbefore trivial hnext, fun o' ho' => ?_⟩
      cases hold : (rowsOf middle).lookup (.order id) with
      | some o =>
          obtain ⟨o'', ho'', hmoves⟩ := hfollowed.moves hnext hold
          obtain rfl := Option.some.inj (ho'.symm.trans ho'')
          exact (hordered o hold).next hmoves hnext
      | none => exact ordered_of_born hfollowed hbefore hnext hold ho'
    · rw [hnone] at ho'
      cases ho'

/-- Two cancellations that both read the order first, and an order of another user. -/
def cancelTwiceAndOrder : List MarketEvent :=
  cancelTogether ++ [.start (.createOrder 2 (sampleOrder 10 none))] ++
    List.replicate 5 (sampleStep 2 []) ++
    [sampleStep 2 [200], sampleStep 2 [201], sampleStep 2 [202]] ++
    List.replicate 4 (sampleStep 2 [])

theorem order_lifecycle_sample : ∃ pool : MarketPool,
    (service ⟨5⟩).run (start sampleRows) cancelTwiceAndOrder = some pool ∧
      (∃ o, (rowsOf pool).lookup (.order 100) = some o ∧
        OrderMoves ⟨1, .created, none, 21, 0⟩ o) ∧
      ∃ o, (rowsOf pool).lookup (.order 200) = some o ∧
        Ordered ⟨5⟩ 200 o (start sampleRows) pool := by
  have hrun : ((service ⟨5⟩).run (start sampleRows) cancelTwiceAndOrder).isSome := by
    decide +kernel
  have hnew : ((rowsOf (((service ⟨5⟩).run (start sampleRows) cancelTwiceAndOrder).get
      hrun)).lookup (.order 200)).isSome := by
    decide +kernel +revert
  have hsteps := Service.Steps.of_run _ (Option.some_get hrun).symm
  have hrows : Stored sampleRows := stored_of_check (by decide +kernel)
  refine ⟨_, (Option.some_get hrun).symm, ?_, ?_⟩
  · obtain ⟨o, ho, hmoves, _⟩ := (order_lifecycle hrows (.refl _) hsteps 100).1 _ rfl
    exact ⟨o, ho, hmoves⟩
  · obtain ⟨o, ho⟩ := Option.isSome_iff_exists.mp hnew
    exact ⟨o, ho, (order_lifecycle hrows (.refl _) hsteps 200).2 rfl o ho⟩

end SoaHomework.Marketplace

import SoaHomework.OrderSessions
import SoaHomework.UpdateChains

/-!
# Rows as their columns hold them

Every statement stores rounded amounts and refuses what does not fit, so that the rows of
the marketplace stay as their columns hold them, whatever requests are served
(`held_serve`).
-/

namespace SoaHomework.OrderSessions

open StatementProgram OrmSession Marketplace

/-- Every row is as its columns hold it. -/
def Held (rows : Rows) : Prop :=
  ∀ k row, rows.lookup k = some row → schema.Holds k row

variable {draw : Draw} {rows : Rows} {t t' : Draft}

theorem Held.stored (h : Held rows) (k : Key) :
    (rows.lookup k).map (schema.stored k) = rows.lookup k := by
  cases hrow : rows.lookup k with
  | none => rfl
  | some row => exact congrArg some (h k row hrow).1

theorem Held.product (h : Held rows) {p : Uuid} {product : Product}
    (hrow : rows.lookup (.product p) = some product) :
    product.stored = product ∧ product.fits = true := h (.product p) product hrow

theorem stored_withUses {promo : PromoCode} (h : promo.stored = promo) (uses : Int) :
    (promo.withUses uses).stored = promo.withUses uses := by
  rw [← h]
  simp only [PromoCode.stored, PromoCode.withUses, round2_round2]

@[simp] theorem fits_stored (order : Order) : order.stored.fits = order.fits := by
  simp only [Order.fits, Order.stored, fitsNumeric, round2_round2]

/-- The columns hold what a statement stores. -/
theorem holds_stored {k : Key} {row : Row k} (h : schema.fits k row = true) :
    schema.Holds k (schema.stored k row) := by
  cases k with
  | product p =>
      have hfits : Product.fits row = true := h
      refine ⟨?_, ?_⟩
      · simp only [schema, Product.stored, round2_round2]
      · simpa only [schema, Product.fits, Product.stored, fitsNumeric, round2_round2] using hfits
  | promo q =>
      have hfits : PromoCode.fits row = true := h
      refine ⟨?_, ?_⟩
      · simp only [schema, PromoCode.stored, round2_round2]
      · simpa only [schema, PromoCode.fits, PromoCode.stored, fitsNumeric, round2_round2]
          using hfits
  | order o =>
      have hfits : Order.fits row = true := h
      exact ⟨Order.stored_stored row, (fits_stored row).trans hfits⟩
  | user u => exact ⟨rfl, rfl⟩
  | items o => exact ⟨rfl, rfl⟩
  | operation o => exact ⟨rfl, rfl⟩

/-- Both what is committed and what the request sees is as the columns hold it. -/
structure HeldDraft (t : Draft) : Prop where
  rows : Held t.rows
  seen : Held t.seen

theorem HeldDraft.put (h : HeldDraft t) {k : Key} {row : Row k} (hrow : schema.Holds k row) :
    HeldDraft (t.put k row) := by
  refine ⟨h.rows, fun k' row' hlookup => ?_⟩
  by_cases hk : k' = k
  · subst hk
    rw [t.lookup_put_self, Option.some.injEq] at hlookup
    rwa [← hlookup]
  · rw [t.lookup_put_of_ne hk] at hlookup
    exact h.seen k' row' hlookup

theorem HeldDraft.update (h : HeldDraft t) {k : Key} {set : Row k → Row k} {check : Row k → Bool}
    (hset : ∀ row, schema.Holds k row → check (set row) = true → schema.Holds k (set row)) :
    HeldDraft (t.update k set check).2 := by
  rw [Draft.update]
  cases hrow : t.seen.lookup k with
  | none => exact h
  | some row =>
      simp only
      split
      · rename_i hcheck
        exact h.put (hset row (h.seen k row hrow) hcheck)
      · exact h

theorem HeldDraft.insert (h : HeldDraft t) {k : Key} {row : Row k} (hrow : schema.Holds k row)
    (hinsert : t.insert k row = some t') : HeldDraft t' := by
  obtain ⟨_, hput⟩ := Option.ite_none_left_eq_some.mp hinsert
  obtain rfl := Option.some.inj hput
  exact h.put hrow

/-- Every statement keeps the rows as their columns hold them. -/
theorem HeldDraft.effect (h : HeldDraft t) {statement : Statement} {answer : Answer statement}
    (hexec : onDraft draw statement t = some (answer, t')) : HeldDraft t' := by
  have hreads : ∀ {value : Result statement}, answerOf t.seen statement = some value →
      HeldDraft t' := by
    intro value hvalue
    rw [effect_read hvalue, Option.some.injEq, Prod.mk.injEq] at hexec
    exact hexec.2 ▸ h
  have hends : ∀ {answer' : Answer statement} {t₁ : Draft}, HeldDraft t₁ →
      some (answer', t₁) = some (answer, t') → HeldDraft t' := by
    intro answer' t₁ h₁ heq
    obtain ⟨_, rfl⟩ := Prod.mk.inj (Option.some.inj heq)
    exact h₁
  have hinserts : ∀ {k : Key} {row : Row k} {value : Answer statement}, schema.Holds k row →
      ((t.insert k row).map fun t => (value, t)) = some (answer, t') → HeldDraft t' := by
    intro k row value hrow hmap
    obtain ⟨t₁, hinsert, heq⟩ := Option.map_eq_some_iff.mp hmap
    obtain ⟨_, rfl⟩ := Prod.mk.inj heq
    exact h.insert hrow hinsert
  cases statement with
  | now => exact hends h hexec
  | commit => exact hends ⟨h.seen, by rw [Draft.seen_of_written]; exact h.seen⟩ hexec
  | updateStock id stock =>
      refine hends (h.update fun product hproduct hfits => ⟨?_, hfits⟩) hexec
      have hprice := congrArg Product.price hproduct.1
      simp only [schema, Product.stored] at hprice ⊢
      rw [hprice]
  | updateUses id uses =>
      refine hends (h.update fun promo hpromo hfits => ⟨?_, hfits⟩) hexec
      obtain ⟨hstored, _⟩ : PromoCode.stored promo = promo ∧ PromoCode.fits promo = true := hpromo
      exact stored_withUses hstored uses
  | updateOrder id change =>
      refine hends (h.update fun order _ hfits => ⟨?_, hfits⟩) hexec
      exact Order.stored_stored (change.apply order)
  | insertOrder order =>
      simp only [onDraft, Draft.effect] at hexec
      split at hexec
      · rename_i hfits
        exact hinserts (holds_stored (k := .order draw.id) hfits) hexec
      · exact hends h hexec
  | insertProduct product =>
      simp only [onDraft, Draft.effect] at hexec
      split at hexec
      · rename_i hfits
        exact hinserts (holds_stored (k := .product draw.id) hfits) hexec
      · exact hends h hexec
  | insertPromo promo =>
      simp only [onDraft, Draft.effect] at hexec
      split at hexec
      · rename_i hfits
        split at hexec
        · cases hexec
        · split at hexec
          · exact hends h hexec
          · exact hends (h.put (holds_stored (k := .promo draw.id) hfits)) hexec
      · exact hends h hexec
  | updateProduct id change =>
      simp only [onDraft, Draft.effect] at hexec
      split at hexec
      · split at hexec
        · exact hends h hexec
        · refine hends (h.update fun product _ hfits => ⟨?_, hfits⟩) hexec
          simp only [schema, Product.stored, round2_round2]
      · exact hends h hexec
  | insertItems orderID lines =>
      simp only [onDraft, Draft.effect] at hexec
      split at hexec
      · exact hends (h.put ⟨rfl, rfl⟩) hexec
      · cases hexec
  | deleteItems orderID ids => exact hends (h.update fun _ _ _ => ⟨rfl, rfl⟩) hexec
  | insertOperation userID operationType => exact hinserts ⟨rfl, rfl⟩ hexec
  | _ => exact hreads rfl

/-- Requests keep the rows as their columns hold them. -/
theorem held_serve {settings : Settings} {request : Request} {rows' : Rows}
    {result : Except HandlerError Response} (h : Held rows)
    (hserve : request.serve settings draw rows = some (result, rows')) : Held rows' := by
  rw [serve_eq, Option.map_eq_some_iff] at hserve
  obtain ⟨⟨_, t⟩, hrun, heq⟩ := hserve
  obtain ⟨rfl, rfl⟩ := Prod.mk.inj heq
  have hstart : HeldDraft ⟨rows, ∅⟩ := by
    refine ⟨h, ?_⟩
    rw [Draft.seen, AList.empty_union]
    exact h
  have hstep : ∀ statement (t : Draft) (t₁ : Draft), t = t₁ ∧ HeldDraft t →
      Option.Rel (fun x y => x.1 = y.1 ∧ x.2 = y.2 ∧ HeldDraft x.2)
        (onDraft draw statement t) (onDraft draw statement t₁) := by
    rintro statement t _ ⟨rfl, ht⟩
    cases hexec : onDraft draw statement t with
    | none => exact .none
    | some executed => exact .some ⟨rfl, rfl, ht.effect hexec⟩
  have hrel := Program.alone_rel hstep (Marketplace.handle settings request) ⟨rfl, hstart⟩
  rw [hrun] at hrel
  cases hrel with
  | some hend => exact hend.2.2.rows

end SoaHomework.OrderSessions

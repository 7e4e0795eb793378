import SoaHomework.Marketplace
import SoaHomework.ProgramRuns

/-!
# The statements of the handlers

Which statements the parts of a handler are made of. The checks only look at the
tables.
-/

namespace SoaHomework.Marketplace

open StatementProgram

/-- The statement writes nothing, and its answer does not show the items of an
    order. -/
def Statement.looks : Statement → Bool
  | .now => true
  | .selectUser _ => true
  | .selectLastOperation _ _ => true
  | .selectProduct _ => true
  | .selectPromoByCode _ => true
  | .selectPromo _ => true
  | .selectOrder _ => true
  | _ => false

/-- A statement of the handlers of products and promo codes. -/
def Statement.catalog : Statement → Bool
  | .insertProduct _ => true
  | .updateProduct _ _ => true
  | .insertPromo _ => true
  | .commit => true
  | .refreshProduct _ => true
  | .refreshPromo _ => true
  | statement => statement.looks

variable {settings : Settings}

theorem uses_query {Q : Statement → Prop} {statement : Statement} (h : Q statement) :
    (query statement).Uses Q := by
  refine ⟨h, fun answer => ?_⟩
  cases answer with
  | ok result => trivial
  | error error => trivial

theorem uses_require {Q : Statement → Prop} {α : Type} (error : ApiError) (row : Option α) :
    (require error row).Uses Q := by
  cases row with
  | none => trivial
  | some row => trivial

theorem uses_returnApi {Q : Statement → Prop} {α : Type} (result : Except ApiError α) :
    (returnApi result).Uses Q := by
  cases result with
  | ok value => trivial
  | error error => trivial

theorem uses_raiseIf {Q : Statement → Prop} (failed : Bool) (error : HandlerError) :
    (Program.raiseIf failed error : Handler Unit).Uses Q := by
  cases failed with
  | false => trivial
  | true => trivial

theorem looks_bind {β : Type} {statement : Statement} {next : Result statement → Handler β}
    (h : statement.looks = true)
    (hnext : ∀ result, (next result).Uses fun statement => statement.looks = true) :
    (query statement >>= next).Uses fun statement => statement.looks = true :=
  Program.uses_bind (uses_query h) hnext

theorem looks_requireRoles (roles : List UserRole) (subject : Uuid) :
    (requireRoles roles subject).Uses fun statement => statement.looks = true := by
  refine looks_bind rfl fun found => ?_
  apply Program.uses_bind (uses_require _ found)
  intro user
  split
  · trivial
  · trivial

theorem looks_checkRateLimit (userID : Uuid) (operationType : OperationType) :
    (checkRateLimit settings userID operationType).Uses
      fun statement => statement.looks = true := by
  refine looks_bind rfl fun last => ?_
  cases last with
  | none => trivial
  | some createdAt =>
      refine looks_bind rfl fun now => ?_
      exact uses_raiseIf _ _

theorem looks_applyPromo (code : String) (total : ℚ) :
    (applyPromo code total).Uses fun statement => statement.looks = true := by
  refine looks_bind rfl fun found => ?_
  apply Program.uses_bind (uses_require _ found)
  intro promo
  refine looks_bind rfl fun now => ?_
  apply Program.uses_bind (uses_returnApi _)
  intro _
  apply Program.uses_bind (uses_returnApi _)
  intro discount
  trivial

theorem looks_loadOrder (subject : Uuid) (user : User) (id : Uuid) :
    (loadOrder subject user id).Uses fun statement => statement.looks = true := by
  refine looks_bind rfl fun found => ?_
  apply Program.uses_bind (uses_require _ found)
  intro order
  apply Program.uses_bind (uses_raiseIf _ _)
  intro _
  trivial

theorem looks_productSeller (subject : Uuid) (user : User) (payload : ProductCreate) :
    (productSeller subject user payload).Uses fun statement => statement.looks = true := by
  rw [productSeller]
  cases payload.sellerID with
  | none => trivial
  | some sellerID =>
      simp only
      split
      · refine looks_bind rfl fun found => ?_
        cases found with
        | none => trivial
        | some seller =>
            simp only
            split
            · trivial
            · trivial
      · apply Program.uses_bind (uses_raiseIf _ _)
        intro _
        trivial

theorem looks_loadProduct (subject : Uuid) (user : User) (id : Uuid) :
    (loadProduct subject user id).Uses fun statement => statement.looks = true := by
  refine looks_bind rfl fun found => ?_
  apply Program.uses_bind (uses_require _ found)
  intro product
  apply Program.uses_bind (uses_raiseIf _ _)
  intro _
  trivial

/-! ## The flushes -/

section Flush

variable {Q : Statement → Prop}

theorem uses_flushStocks (changes : List (Uuid × Int)) (h : ∀ p stock, Q (.updateStock p stock)) :
    (flushStocks changes).Uses Q := by
  induction changes with
  | nil => trivial
  | cons change changes ih => exact Program.uses_bind (uses_query (h change.1 change.2)) fun _ => ih

theorem uses_flushUses {promoID : Uuid} (promo : PromoCode) (uses : Int)
    (h : Q (.updateUses promoID uses)) : (flushUses promoID promo uses).Uses Q := by
  rw [flushUses]
  split
  · trivial
  · exact uses_query h

theorem uses_flushOrder {id : Uuid} (loaded assigned : Order)
    (h : ∀ change, Q (.updateOrder id change)) : (flushOrder id loaded assigned).Uses Q := by
  rw [flushOrder]
  split
  · trivial
  · exact uses_query (h _)

theorem uses_orderResponse {id : Uuid} (hrefresh : Q (.refreshOrder id))
    (hitems : Q (.selectItems id)) : (orderResponse id).Uses Q := by
  apply Program.uses_bind (uses_query hrefresh)
  intro found
  cases found with
  | none => trivial
  | some order =>
      apply Program.uses_bind (uses_query hitems)
      intro items
      trivial

end Flush

/-! ## Products and promo codes -/

theorem catalog_of_looks {α : Type} {p : Handler α}
    (h : p.Uses fun statement => statement.looks = true) :
    p.Uses fun statement => statement.catalog = true := by
  apply h.mono
  intro statement hlooks
  cases statement with
  | insertProduct product => cases hlooks
  | updateProduct id change => cases hlooks
  | insertPromo promo => cases hlooks
  | commit => cases hlooks
  | refreshProduct id => cases hlooks
  | refreshPromo id => cases hlooks
  | _ => exact hlooks

theorem catalog_bind {β : Type} {statement : Statement} {next : Result statement → Handler β}
    (h : statement.catalog = true)
    (hnext : ∀ result, (next result).Uses fun statement => statement.catalog = true) :
    (query statement >>= next).Uses fun statement => statement.catalog = true :=
  Program.uses_bind (uses_query h) hnext

theorem catalog_productResponse (id : Uuid) :
    (productResponse id).Uses fun statement => statement.catalog = true := by
  refine catalog_bind rfl fun found => ?_
  cases found with
  | none => trivial
  | some product => trivial

theorem catalog_createProduct (subject : Uuid) (payload : ProductCreate) :
    (createProduct subject payload).Uses fun statement => statement.catalog = true := by
  apply Program.uses_bind (catalog_of_looks (looks_requireRoles _ subject))
  intro user
  apply Program.uses_bind (catalog_of_looks (looks_productSeller subject user payload))
  intro sellerID
  refine catalog_bind rfl fun id => ?_
  refine catalog_bind rfl fun _ => ?_
  exact catalog_productResponse id

theorem catalog_flushProduct (id : Uuid) (change : ProductChange) :
    (flushProduct id change).Uses fun statement => statement.catalog = true := by
  rw [flushProduct]
  split
  · trivial
  · exact uses_query rfl

theorem catalog_updateProduct (subject id : Uuid) (payload : ProductUpdate) :
    (updateProduct subject id payload).Uses fun statement => statement.catalog = true := by
  apply Program.uses_bind (catalog_of_looks (looks_requireRoles _ subject))
  intro user
  apply Program.uses_bind (catalog_of_looks (looks_loadProduct subject user id))
  intro product
  apply Program.uses_bind (catalog_flushProduct id _)
  intro _
  refine catalog_bind rfl fun _ => ?_
  exact catalog_productResponse id

theorem catalog_deleteProduct (subject id : Uuid) :
    (deleteProduct subject id).Uses fun statement => statement.catalog = true := by
  apply Program.uses_bind (catalog_of_looks (looks_requireRoles _ subject))
  intro user
  apply Program.uses_bind (catalog_of_looks (looks_loadProduct subject user id))
  intro product
  apply Program.uses_bind (catalog_flushProduct id _)
  intro _
  refine catalog_bind rfl fun _ => ?_
  trivial

theorem catalog_createPromoCode (subject : Uuid) (payload : PromoCodeCreate) :
    (createPromoCode subject payload).Uses fun statement => statement.catalog = true := by
  apply Program.uses_bind (catalog_of_looks (looks_requireRoles _ subject))
  intro user
  refine catalog_bind rfl fun id => ?_
  refine catalog_bind rfl fun _ => ?_
  refine catalog_bind rfl fun found => ?_
  cases found with
  | none => trivial
  | some promo => trivial

end SoaHomework.Marketplace

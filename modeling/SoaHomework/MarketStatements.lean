import SoaHomework.MarketEffects

/-!
# What a statement of a session does

A session keeps the rows it has loaded (`SessionStep`), other sessions are left
alone (`Frame`), and `At` says where a session stands in its transaction: what
it has loaded, written and locked, and which rows are known to exist. One lemma
for each statement says how `At` moves on.
-/

namespace SoaHomework.Marketplace

open StatementProgram

/-- The order that a request acts on. -/
def Request.target : Request → Option Uuid
  | .updateOrder _ id _ => some id
  | .cancelOrder _ id => some id
  | _ => none

/-- What a session has loaded is committed when it is loaded. -/
structure SessionStep (request : Request) (rows : Rows) (old new : Session) : Prop where
  order : ∀ id o, new.order = some (id, o) →
    old.order = some (id, o) ∨
      (rows.lookup (.order id) = some o ∧ request.target = some id ∧ new.items = none ∧
        new.promo = none)
  items : ∀ id items, new.items = some (id, items) →
    old.items = some (id, items) ∨ itemsOf rows id = items
  promo : ∀ q promo, new.promo = some (q, promo) →
    old.promo = some (q, promo) ∨ rows.lookup (.promo q) = some promo

variable {request : Request} {i : Nat} {s s' : State} {generated : List Uuid}

theorem SessionStep.refl (rows : Rows) (session : Session) :
    SessionStep request rows session session :=
  ⟨fun _ _ h => Or.inl h, fun _ _ h => Or.inl h, fun _ _ h => Or.inl h⟩

theorem SessionStep.empty (rows : Rows) (session : Session) :
    SessionStep request rows session .empty :=
  ⟨fun _ _ h => (by cases h), fun _ _ h => (by cases h), fun _ _ h => (by cases h)⟩

@[simp] theorem withDb_db (db : Db) : (s.withDb db).db = db := rfl

@[simp] theorem withDb_sessions (db : Db) : (s.withDb db).sessions = s.sessions := rfl

@[simp] theorem withSession_db (session : Session) : (s.withSession i session).db = s.db := rfl

@[simp] theorem withSession_self (session : Session) :
    (s.withSession i session).sessions i = session := Function.update_self _ _ _

theorem withSession_other {j : Nat} (hij : i ≠ j) (session : Session) :
    (s.withSession i session).sessions j = s.sessions j :=
  Function.update_of_ne (Ne.symm hij) _ _

/-- What the other sessions see of a statement of session `i`. -/
structure Frame (i : Nat) (s s' : State) : Prop where
  consistent : s'.db.Consistent codeIndex
  keeps : ∀ j, i ≠ j → RowStore.Keeps codeIndex j s.db s'.db
  sessions : ∀ j, i ≠ j → s'.sessions j = s.sessions j
  grows : ∀ k, k ∈ s.db.rows → k ∈ s'.db.rows

theorem Frame.of_access (hs : s.db.Consistent codeIndex)
    (h : RowStore.Access codeIndex i s.db s'.db)
    (hsessions : ∀ j, i ≠ j → s'.sessions j = s.sessions j) :
    Frame i s s' ∧ s'.db.rows = s.db.rows :=
  ⟨⟨h.consistent hs, fun _ hij => h.keeps hij, hsessions, fun k hk => by rwa [h.rows]⟩, h.rows⟩

theorem insertItems_access {db db' : Db} {orderID : Uuid} {items : List OrderItem}
    (h : insertItems db i orderID items = some db') : RowStore.Access codeIndex i db db' := by
  unfold insertItems at h
  split at h
  · exact .inserted rfl h
  · simp only [Option.map_eq_some_iff] at h
    obtain ⟨⟨written, db₁⟩, hupdate, rfl⟩ := h
    exact .updated (by intro row; rfl) hupdate

/-! ## Inverting the answers -/

section Answers

variable {α row : Type} {session : Session}

theorem answerRead_eq {value : α} {answer : Except DbError α}
    (h : answerRead s value = some (answer, s')) : answer = .ok value ∧ s' = s := by
  simp only [answerRead, Option.some.injEq, Prod.mk.injEq] at h
  exact ⟨h.1.symm, h.2.symm⟩

theorem answerLoaded_eq {value : α} {answer : Except DbError α}
    (h : answerLoaded s i value session = some (answer, s')) :
    answer = .ok value ∧ s' = s.withSession i session := by
  simp only [answerLoaded, Option.some.injEq, Prod.mk.injEq] at h
  exact ⟨h.1.symm, h.2.symm⟩

theorem answerUpdate_eq {result : Option (RowStore.Written row × Db)}
    {answer : Except DbError Unit} (h : answerUpdate s result = some (answer, s')) :
    ∃ written db, result = some (written, db) ∧ answer = answerWritten written ∧
      s' = s.withDb db := by
  simp only [answerUpdate, Option.map_eq_some_iff, Prod.mk.injEq] at h
  obtain ⟨⟨written, db⟩, hresult, hanswer, hs'⟩ := h
  exact ⟨written, db, hresult, hanswer.symm, hs'.symm⟩

theorem answerDb_eq {value : α} {db? : Option Db} {answer : Except DbError α}
    (h : answerDb s value db? = some (answer, s')) :
    ∃ db, db? = some db ∧ answer = .ok value ∧ s' = s.withDb db := by
  simp only [answerDb, Option.map_eq_some_iff, Prod.mk.injEq] at h
  obtain ⟨db, hdb, hanswer, hs'⟩ := h
  exact ⟨db, hdb, hanswer.symm, hs'.symm⟩

end Answers

/-- A statement that fails leaves the state. -/
theorem execute_failure {statement : Statement} {answer : Answer statement}
    (h : execute i statement .failure s = some (answer, s')) :
    answer = .error .failure ∧ s' = s := by
  simp only [execute, Option.some.injEq, Prod.mk.injEq] at h
  exact ⟨h.1.symm, h.2.symm⟩

/-- A statement other than the commit reaches the tables through the store, and
    leaves the other sessions and the clock alone. -/
structure Reach (i : Nat) (s s' : State) : Prop where
  access : RowStore.Access codeIndex i s.db s'.db
  sessions : ∀ j, i ≠ j → s'.sessions j = s.sessions j
  clock : s'.clock = s.clock

theorem proceed_reach {statement : Statement} {answer : Answer statement}
    (hcommit : statement ≠ .commit)
    (h : proceed i generated s statement = some (answer, s')) : Reach i s s' := by
  have hsame : s' = s → Reach i s s' := by
    rintro rfl
    exact ⟨.none, fun _ _ => rfl, rfl⟩
  have hload : ∀ session, s' = s.withSession i session → Reach i s s' := by
    rintro session rfl
    exact ⟨.none, fun j hij => withSession_other hij session, rfl⟩
  have hdb : ∀ db, RowStore.Access codeIndex i s.db db → s' = s.withDb db → Reach i s s' := by
    rintro db haccess rfl
    exact ⟨haccess, fun _ _ => rfl, rfl⟩
  cases statement with
  | commit => exact absurd rfl hcommit
  | selectUser id => exact hload _ (answerLoaded_eq h).2
  | selectPromoByCode code => exact hload _ (answerLoaded_eq h).2
  | selectPromo id => exact hload _ (answerLoaded_eq h).2
  | selectOrder id => exact hload _ (answerLoaded_eq h).2
  | selectItems orderID => exact hload _ (answerLoaded_eq h).2
  | selectProductsForUpdate ids =>
      obtain ⟨db, hlock, _, hs'⟩ := answerDb_eq h
      exact hdb db (.locked hlock) hs'
  | updateStock id stock =>
      obtain ⟨written, db, hupdate, _, hs'⟩ := answerUpdate_eq h
      exact hdb db (.updated (by intro row; rfl) hupdate) hs'
  | updateUses id uses =>
      obtain ⟨written, db, hupdate, _, hs'⟩ := answerUpdate_eq h
      exact hdb db (.updated (by intro row; rfl) hupdate) hs'
  | updateOrder id change =>
      obtain ⟨written, db, hupdate, _, hs'⟩ := answerUpdate_eq h
      exact hdb db (.updated (by intro row; rfl) hupdate) hs'
  | deleteItems orderID ids =>
      obtain ⟨db, hdb', _, hs'⟩ := answerDb_eq h
      obtain ⟨⟨written, db₁⟩, hupdate, rfl⟩ := Option.map_eq_some_iff.mp hdb'
      exact hdb _ (.updated (by intro row; rfl) hupdate) hs'
  | insertOrder order =>
      simp only [proceed] at h
      split at h
      · obtain ⟨id, _, hinsert⟩ := Option.bind_eq_some_iff.mp h
        obtain ⟨db, hdb', _, hs'⟩ := answerDb_eq hinsert
        exact hdb db (.inserted rfl hdb') hs'
      · simp only [Option.some.injEq, Prod.mk.injEq] at h
        exact hsame h.2.symm
  | insertItems orderID lines =>
      simp only [proceed] at h
      split at h
      · obtain ⟨db, hdb', _, hs'⟩ := answerDb_eq h
        exact hdb db (insertItems_access hdb') hs'
      · cases h
  | insertOperation userID operationType =>
      obtain ⟨id, _, hinsert⟩ := Option.bind_eq_some_iff.mp h
      obtain ⟨db, hdb', _, hs'⟩ := answerDb_eq hinsert
      exact hdb db (.inserted rfl hdb') hs'
  | insertProduct product =>
      simp only [proceed] at h
      split at h
      · obtain ⟨id, _, hinsert⟩ := Option.bind_eq_some_iff.mp h
        obtain ⟨db, hdb', _, hs'⟩ := answerDb_eq hinsert
        exact hdb db (.inserted rfl hdb') hs'
      · simp only [Option.some.injEq, Prod.mk.injEq] at h
        exact hsame h.2.symm
  | updateProduct id change =>
      simp only [proceed] at h
      split at h
      · simp only [Option.some.injEq, Prod.mk.injEq] at h
        exact hsame h.2.symm
      · obtain ⟨written, db, hupdate, _, hs'⟩ := answerUpdate_eq h
        exact hdb db (.updated (by intro row; rfl) hupdate) hs'
  | insertPromo promo =>
      simp only [proceed] at h
      split at h
      · obtain ⟨id, _, hinsert⟩ := Option.bind_eq_some_iff.mp h
        obtain ⟨⟨written, db⟩, hdb', heq⟩ := Option.map_eq_some_iff.mp hinsert
        exact hdb db (.insertedUnique rfl hdb') (Prod.mk.inj heq).2.symm
      · simp only [Option.some.injEq, Prod.mk.injEq] at h
        exact hsame h.2.symm
  | now => exact hsame (answerRead_eq h).2
  | selectLastOperation userID operationType => exact hsame (answerRead_eq h).2
  | selectActiveOrder userID => exact hsame (answerRead_eq h).2
  | selectProduct id => exact hsame (answerRead_eq h).2
  | refreshOrder id => exact hsame (answerRead_eq h).2
  | refreshProduct id => exact hsame (answerRead_eq h).2
  | refreshPromo id => exact hsame (answerRead_eq h).2

/-- It leaves the committed rows, too. -/
theorem proceed_frame {statement : Statement} {answer : Answer statement}
    (hs : s.db.Consistent codeIndex) (hcommit : statement ≠ .commit)
    (h : proceed i generated s statement = some (answer, s')) :
    Frame i s s' ∧ s'.db.rows = s.db.rows := by
  have hreach := proceed_reach hcommit h
  exact Frame.of_access hs hreach.access hreach.sessions

/-! ## Where a session stands -/

/-- Session `i` has loaded what `session` says, has written `written`, knows
    the locked rows `known`, and the rows under `present` exist. -/
structure At (i : Nat) (session : Session) (written : Rows)
    (known : (k : Key) → Option (Row k)) (present : List Key) (s : State) : Prop where
  holds : s.db.Holds i written known
  order : (s.sessions i).order = session.order
  items : (s.sessions i).items = session.items
  promo : (s.sessions i).promo = session.promo
  present : ∀ k ∈ present, k ∈ s.db.rows

/-- Before its first write a session sees the committed rows. -/
theorem At.view {session : Session} {known : (k : Key) → Option (Row k)} {present : List Key}
    (h : At i session ∅ known present s) : s.db.view i = s.db.rows := by
  rw [RowStore.view, h.holds.pending, AList.empty_union]

theorem At.read {session : Session} {known : (k : Key) → Option (Row k)} {present : List Key}
    (h : At i session ∅ known present s) (k : Key) : s.db.read i k = s.db.rows.lookup k :=
  h.holds.read_of_notMem (AList.notMem_empty k)

/-- What is known of the result of a statement that has succeeded. -/
def OnResult {statement : Statement} (middle : Result statement → State → Prop) :
    Answer statement → State → Prop
  | .ok result, s => middle result s
  | .error _, _ => True

/-- What a statement of session `i` establishes. -/
def Moves (request : Request) (i : Nat) (pre : State → Prop) (statement : Statement)
    (middle : Result statement → State → Prop) : Prop :=
  ∀ s generated answer s', WellFormed s.db.rows → pre s →
    proceed i generated s statement = some (answer, s') →
    OnResult middle answer s' ∧
      SessionStep request s.db.rows (s.sessions i) (s'.sessions i)

section Moves

variable {session : Session} {written : Rows} {known : (k : Key) → Option (Row k)}
  {present : List Key}

/-- A statement that leaves the state alone. -/
theorem moves_read {statement : Statement} {pre : State → Prop}
    (h : ∀ s generated answer s', proceed i generated s statement = some (answer, s') → s' = s) :
    Moves request i pre statement fun _ => pre := by
  intro s generated answer s' _ hpre hrun
  have hs' := h s generated answer s' hrun
  subst hs'
  refine ⟨?_, SessionStep.refl _ _⟩
  cases answer with
  | ok result => exact hpre
  | error error => trivial

theorem At.load {new session' : Session} (h : At i session written known present s)
    (horder : new.order = session'.order) (hitems : new.items = session'.items)
    (hpromo : new.promo = session'.promo) :
    At i session' written known present (s.withSession i new) where
  holds := h.holds
  order := by rw [withSession_self, horder]
  items := by rw [withSession_self, hitems]
  promo := by rw [withSession_self, hpromo]
  present := h.present

theorem At.withDb {written' : Rows} {known' : (k : Key) → Option (Row k)} {db : Db}
    (h : At i session written known present s) (hdb : db.Holds i written' known')
    (hrows : db.rows = s.db.rows) : At i session written' known' present (s.withDb db) where
  holds := hdb
  order := h.order
  items := h.items
  promo := h.promo
  present k hk := by
    rw [withDb_db, hrows]
    exact h.present k hk

theorem At.also {more : List Key} (h : At i session written known present s)
    (hmore : ∀ k ∈ more, k ∈ s.db.rows) : At i session written known (more ++ present) s :=
  ⟨h.holds, h.order, h.items, h.promo, fun k hk =>
    (List.mem_append.mp hk).elim (hmore k) (h.present k)⟩

theorem moves_selectUser (id : Uuid) :
    Moves request i (At i session written known present) (.selectUser id)
      fun _ => At i session written known present := by
  intro s generated answer s' _ hat hrun
  obtain ⟨rfl, rfl⟩ := answerLoaded_eq hrun
  refine ⟨?_, ?_⟩
  · exact hat.load hat.order hat.items hat.promo
  · rw [withSession_self]
    exact ⟨fun _ _ h => Or.inl h, fun _ _ h => Or.inl h, fun _ _ h => Or.inl h⟩

/-- The rows that a loaded order shows to exist. -/
def orderKeys (id : Uuid) : Option Order → List Key
  | some o => .order id :: o.promoCodeID.toList.map .promo
  | none => []

theorem moves_selectOrder {id : Uuid} (htarget : request.target = some id)
    (hitems : session.items = none) (hpromo : session.promo = none) :
    Moves request i (At i session ∅ known present) (.selectOrder id) fun o =>
      At i { session with order := o.map fun o => (id, o) } ∅ known
        (orderKeys id o ++ present) := by
  intro s generated answer s' hrows hat hrun
  obtain ⟨rfl, rfl⟩ := answerLoaded_eq hrun
  rw [hat.read]
  refine ⟨?_, ?_⟩
  · refine At.also (hat.load rfl hat.items hat.promo) fun k hk => ?_
    rw [withSession_db]
    cases ho : s.db.rows.lookup (.order id) with
    | none =>
        rw [ho] at hk
        cases hk
    | some o =>
        rw [ho] at hk
        rcases List.mem_cons.mp hk with rfl | hkey
        · exact mem_of_lookup ho
        · obtain ⟨q, hq, rfl⟩ := List.mem_map.mp hkey
          exact hrows.promo id o q ho (Option.mem_toList.mp hq)
  · rw [withSession_self]
    refine ⟨fun id' o ho => Or.inr ?_, fun _ _ h => Or.inl h, fun _ _ h => Or.inl h⟩
    obtain ⟨o', ho', heq⟩ := Option.map_eq_some_iff.mp ho
    obtain ⟨rfl, rfl⟩ := Prod.mk.inj heq
    exact ⟨ho', htarget, hat.items.trans hitems, hat.promo.trans hpromo⟩

theorem moves_selectItems (id : Uuid) :
    Moves request i (At i session ∅ known present) (.selectItems id) fun items s =>
      (∀ item ∈ items, 0 ≤ item.quantity) ∧
        At i { session with items := some (id, items) } ∅ known
          (items.map (fun item => .product item.productID) ++ present) s := by
  intro s generated answer s' hrows hat hrun
  obtain ⟨rfl, rfl⟩ := answerLoaded_eq hrun
  rw [hat.view]
  refine ⟨⟨fun item hitem => hrows.quantity id item hitem, ?_⟩, ?_⟩
  · refine At.also (hat.load hat.order rfl hat.promo) fun k hk => ?_
    obtain ⟨item, hitem, rfl⟩ := List.mem_map.mp hk
    exact hrows.product id item hitem
  · rw [withSession_self]
    refine ⟨fun _ _ h => Or.inl h, fun id' items h => Or.inr ?_, fun _ _ h => Or.inl h⟩
    obtain ⟨rfl, rfl⟩ := Prod.mk.inj (Option.some.inj h)
    rfl

theorem moves_selectPromo (q : Uuid) :
    Moves request i (At i session ∅ known present) (.selectPromo q) fun promo s =>
      (promo = none → .promo q ∉ present) ∧
        At i { session with promo := promo.map fun p => (q, p) } ∅ known present s := by
  intro s generated answer s' hrows hat hrun
  obtain ⟨rfl, rfl⟩ := answerLoaded_eq hrun
  rw [hat.read]
  refine ⟨⟨fun hnone hpresent => ?_, ?_⟩, ?_⟩
  · exact AList.lookup_eq_none.mp hnone (hat.present _ hpresent)
  · exact hat.load hat.order hat.items rfl
  · rw [withSession_self]
    refine ⟨fun _ _ h => Or.inl h, fun _ _ h => Or.inl h, fun q' p hp => Or.inr ?_⟩
    obtain ⟨p', hp', heq⟩ := Option.map_eq_some_iff.mp hp
    obtain ⟨rfl, rfl⟩ := Prod.mk.inj heq
    exact hp'

theorem promoByCode_some {rows : Rows} {code : String} {q : Uuid} {promo : PromoCode}
    (h : promoByCode rows code = some (q, promo)) : rows.lookup (.promo q) = some promo := by
  obtain ⟨⟨key, row⟩, hmem, hfound⟩ := List.exists_of_findSome?_eq_some h
  cases key with
  | promo id =>
      simp only [Option.ite_none_right_eq_some, Option.some.injEq, Prod.mk.injEq] at hfound
      obtain ⟨_, rfl, rfl⟩ := hfound
      exact AList.mem_lookup_iff.mpr hmem
  | _ => cases hfound

theorem moves_selectPromoByCode (code : String) :
    Moves request i (At i session ∅ known present) (.selectPromoByCode code) fun found =>
      At i { session with promo := found } ∅ known
        (found.toList.map (fun promo => .promo promo.1) ++ present) := by
  intro s generated answer s' hrows hat hrun
  obtain ⟨rfl, rfl⟩ := answerLoaded_eq hrun
  rw [hat.view]
  refine ⟨?_, ?_⟩
  · refine At.also (hat.load hat.order hat.items rfl) fun k hk => ?_
    obtain ⟨⟨q, promo⟩, hfound, rfl⟩ := List.mem_map.mp hk
    exact mem_of_lookup (promoByCode_some (Option.mem_toList.mp hfound))
  · rw [withSession_self]
    exact ⟨fun _ _ h => Or.inl h, fun _ _ h => Or.inl h,
      fun q promo h => Or.inr (promoByCode_some h)⟩

theorem lookup_productMap (rows : Rows) (ids : List Uuid) (p : Uuid) :
    (productMap rows ids).lookup p = if p ∈ ids then rows.lookup (.product p) else none := by
  induction ids with
  | nil => rfl
  | cons id ids ih =>
      have hother : p ≠ id → ((productMap rows ids).lookup p =
          if p ∈ id :: ids then rows.lookup (.product p) else none) := by
        intro hne
        rw [ih]
        simp [hne]
      simp only [productMap]
      by_cases hp : p = id
      · subst hp
        rw [if_pos List.mem_cons_self]
        cases hrow : rows.lookup (.product p) with
        | none =>
            simp only
            rw [ih, hrow]
            simp
        | some product => simp
      · cases rows.lookup (.product id) with
        | none => exact hother hp
        | some product =>
            simp only
            rw [AList.lookup_insert_ne hp]
            exact hother hp

/-- The products of a `FOR UPDATE` are locked. -/
def knownProducts (products : ProductMap) : (k : Key) → Option (Row k)
  | .product p => products.lookup p
  | _ => none

theorem moves_selectProductsForUpdate (ids : List Uuid) :
    Moves request i (At i session ∅ (fun _ => none) present) (.selectProductsForUpdate ids)
      fun products s =>
        (∀ p ∈ ids, .product p ∈ present → ∃ x, products.lookup p = some x) ∧
          At i session ∅ (knownProducts products) present s := by
  intro s generated answer s' hrows hat hrun
  obtain ⟨db, hlock, rfl, rfl⟩ := answerDb_eq hrun
  have hsame : db.rows = s.db.rows := RowStore.lockAll_rows hlock
  have hholds := hat.holds.lockAll hlock
  refine ⟨⟨fun p hp hpresent => ?_, hat.withDb ?_ hsame⟩, SessionStep.refl _ _⟩
  · rw [hat.view, lookup_productMap, if_pos hp]
    exact Option.isSome_iff_exists.mp (AList.lookup_isSome.mpr (hat.present _ hpresent))
  · refine ⟨hholds.pending, fun k row hk => hholds.locked k row ?_,
      fun k hk _ => absurd hk (AList.notMem_empty k)⟩
    cases k with
    | product p =>
        simp only [knownProducts, hat.view, lookup_productMap] at hk
        by_cases hp : p ∈ ids
        · rw [if_pos hp] at hk
          rw [if_pos (List.mem_map.mpr ⟨p, hp, rfl⟩), hk]
        · rw [if_neg hp] at hk
          cases hk
    | _ => cases hk

/-- An `UPDATE` of a row that the session has locked. -/
theorem update_known {k : Key} {row : Row k} {set : Row k → Row k} {check : Row k → Bool}
    {answer : Except DbError Unit} (hat : At i session written known present s)
    (hk : k ∉ written) (hrow : known k = some row)
    (h : answerUpdate s (s.db.update i k set check) = some (answer, s')) :
    (∃ error, answer = .error error) ∨
      At i session (written.insert k (set row)) known present s' := by
  obtain ⟨result, db, hupdate, rfl, rfl⟩ := answerUpdate_eq h
  rcases hat.holds.update_known hk hrow hupdate with ⟨_, rfl, _⟩ | ⟨rfl, hholds⟩
  · exact Or.inl ⟨_, rfl⟩
  · exact Or.inr (hat.withDb hholds (RowStore.update_rows hupdate))

/-- An `UPDATE` of a row that the session may not have locked. -/
theorem update_unknown {k : Key} {set : Row k → Row k} {check : Row k → Bool}
    {answer : Except DbError Unit} (hat : At i session written known present s)
    (hk : k ∉ written)
    (h : answerUpdate s (s.db.update i k set check) = some (answer, s')) :
    (∃ error, answer = .error error) ∨
      ∃ row, At i session (written.insert k (set row)) (Function.update known k (some row))
        present s' := by
  obtain ⟨result, db, hupdate, rfl, rfl⟩ := answerUpdate_eq h
  rcases hat.holds.update hk hupdate with ⟨rfl, _, _⟩ | ⟨row, _, ⟨_, rfl, _⟩ | ⟨rfl, hholds⟩⟩
  · exact Or.inl ⟨_, rfl⟩
  · exact Or.inl ⟨_, rfl⟩
  · exact Or.inr ⟨row, hat.withDb hholds (RowStore.update_rows hupdate)⟩

theorem sessionStep_of_eq (h : s'.sessions = s.sessions) :
    SessionStep request s.db.rows (s.sessions i) (s'.sessions i) := by
  rw [h]
  exact SessionStep.refl _ _

theorem answerUpdate_sessions {row : Type} {result : Option (RowStore.Written row × Db)}
    {answer : Except DbError Unit} (h : answerUpdate s result = some (answer, s')) :
    s'.sessions = s.sessions := by
  obtain ⟨_, _, _, _, rfl⟩ := answerUpdate_eq h
  rfl

theorem moves_updateStock {id : Uuid} {stock : Int} {product : Product}
    (hid : .product id ∉ written) (hproduct : known (.product id) = some product) :
    Moves request i (At i session written known present) (.updateStock id stock) fun _ =>
      At i session (written.insert (.product id) { product with stock := stock }) known
        present := by
  intro s generated answer s' _ hat hrun
  refine ⟨?_, sessionStep_of_eq (answerUpdate_sessions hrun)⟩
  rcases update_known hat hid hproduct hrun with ⟨error, rfl⟩ | hnext
  · trivial
  · cases answer with
    | ok _ => exact hnext
    | error error => trivial

theorem moves_updateUses {q : Uuid} {uses : Int} (hq : .promo q ∉ written) :
    Moves request i (At i session written known present) (.updateUses q uses) fun _ s =>
      ∃ promo : PromoCode, At i session
        (written.insert (.promo q) { promo with currentUses := uses })
        (Function.update known (.promo q) (some promo)) present s := by
  intro s generated answer s' _ hat hrun
  refine ⟨?_, sessionStep_of_eq (answerUpdate_sessions hrun)⟩
  rcases update_unknown hat hq hrun with ⟨error, rfl⟩ | hnext
  · trivial
  · cases answer with
    | ok _ => exact hnext
    | error error => trivial

theorem moves_updateOrder {id : Uuid} {change : OrderChange} (hid : .order id ∉ written) :
    Moves request i (At i session written known present) (.updateOrder id change) fun _ s =>
      ∃ o : Order, At i session (written.insert (.order id) (change.apply o).stored)
        (Function.update known (.order id) (some o)) present s := by
  intro s generated answer s' _ hat hrun
  refine ⟨?_, sessionStep_of_eq (answerUpdate_sessions hrun)⟩
  rcases update_unknown hat hid hrun with ⟨error, rfl⟩ | hnext
  · trivial
  · cases answer with
    | ok _ => exact hnext
    | error error => trivial

theorem moves_updateProduct {id : Uuid} {change : ProductChange} (hid : .product id ∉ written) :
    Moves request i (At i session written known present) (.updateProduct id change) fun _ s =>
      ∃ product : Product, At i session
        (written.insert (.product id) (change.apply product).stored)
        (Function.update known (.product id) (some product)) present s := by
  intro s generated answer s' _ hat hrun
  simp only [proceed] at hrun
  by_cases hnull : change.violatesNotNull = true
  · rw [if_pos hnull, Option.some.injEq, Prod.mk.injEq] at hrun
    obtain ⟨rfl, rfl⟩ := hrun
    exact ⟨trivial, SessionStep.refl _ _⟩
  · rw [if_neg hnull] at hrun
    refine ⟨?_, sessionStep_of_eq (answerUpdate_sessions hrun)⟩
    rcases update_unknown hat hid hrun with ⟨error, rfl⟩ | hnext
    · trivial
    · cases answer with
      | ok _ => exact hnext
      | error error => trivial

/-- An `INSERT` of one row that no unique index covers. -/
theorem insert_new {α : Type} {value : α} {k : Key} {row : Row k} {answer : Except DbError α}
    (hat : At i session written known present s)
    (h : answerDb s value (s.db.insertRow i k row) = some (answer, s')) :
    answer = .ok value ∧ At i session (written.insert k row) known present s' ∧
      s'.sessions = s.sessions := by
  obtain ⟨db, hinsert, rfl, rfl⟩ := answerDb_eq h
  obtain ⟨_, _, hholds⟩ := hat.holds.insertRow hinsert
  exact ⟨rfl, hat.withDb hholds (RowStore.insertRow_rows hinsert), rfl⟩

theorem moves_insertOrder {order : Order} :
    Moves request i (At i session written known present) (.insertOrder order) fun id =>
      At i session (written.insert (.order id) order.stored) known present := by
  intro s generated answer s' _ hat hrun
  simp only [proceed] at hrun
  split at hrun
  · obtain ⟨id, _, hinsert⟩ := Option.bind_eq_some_iff.mp hrun
    obtain ⟨rfl, hnext, hsessions⟩ := insert_new hat hinsert
    exact ⟨hnext, sessionStep_of_eq hsessions⟩
  · rw [Option.some.injEq, Prod.mk.injEq] at hrun
    obtain ⟨rfl, rfl⟩ := hrun
    exact ⟨trivial, SessionStep.refl _ _⟩

theorem moves_insertProduct {product : Product} :
    Moves request i (At i session written known present) (.insertProduct product) fun id =>
      At i session (written.insert (.product id) product.stored) known present := by
  intro s generated answer s' _ hat hrun
  simp only [proceed] at hrun
  split at hrun
  · obtain ⟨id, _, hinsert⟩ := Option.bind_eq_some_iff.mp hrun
    obtain ⟨rfl, hnext, hsessions⟩ := insert_new hat hinsert
    exact ⟨hnext, sessionStep_of_eq hsessions⟩
  · rw [Option.some.injEq, Prod.mk.injEq] at hrun
    obtain ⟨rfl, rfl⟩ := hrun
    exact ⟨trivial, SessionStep.refl _ _⟩

theorem moves_insertOperation {userID : Uuid} {operationType : OperationType} :
    Moves request i (At i session written known present)
      (.insertOperation userID operationType) fun _ s =>
        ∃ id row, At i session (written.insert (.operation id) row) known present s := by
  intro s generated answer s' _ hat hrun
  obtain ⟨id, _, hinsert⟩ := Option.bind_eq_some_iff.mp hrun
  obtain ⟨rfl, hnext, hsessions⟩ := insert_new hat hinsert
  exact ⟨⟨id, _, hnext⟩, sessionStep_of_eq hsessions⟩

theorem moves_insertPromo {promo : PromoCode} :
    Moves request i (At i session written known present) (.insertPromo promo) fun id =>
      At i session (written.insert (.promo id) promo.stored) known present := by
  intro s generated answer s' _ hat hrun
  simp only [proceed] at hrun
  split at hrun
  · obtain ⟨id, _, hinsert⟩ := Option.bind_eq_some_iff.mp hrun
    obtain ⟨⟨result, db⟩, hdb, heq⟩ := Option.map_eq_some_iff.mp hinsert
    obtain ⟨rfl, rfl⟩ := Prod.mk.inj heq
    refine ⟨?_, SessionStep.refl _ _⟩
    rcases hat.holds.insert hdb with ⟨rfl, _⟩ | ⟨rfl, _, hholds⟩
    · trivial
    · exact hat.withDb hholds (RowStore.insert_rows hdb)
  · rw [Option.some.injEq, Prod.mk.injEq] at hrun
    obtain ⟨rfl, rfl⟩ := hrun
    exact ⟨trivial, SessionStep.refl _ _⟩

/-- The keys of order lines in a row. -/
def rowItemIDs : (k : Key) → Row k → List Uuid
  | .items _, items => items.map OrderItem.id
  | _, _ => []

theorem mem_itemIDs_iff {rows : Rows} {id : Uuid} :
    id ∈ itemIDs rows ↔ ∃ k, ∃ row : Row k, rows.lookup k = some row ∧ id ∈ rowItemIDs k row := by
  rw [itemIDs, List.mem_flatMap]
  constructor
  · rintro ⟨⟨k, row⟩, hentry, hid⟩
    refine ⟨k, row, AList.mem_lookup_iff.mpr hentry, ?_⟩
    cases k with
    | items orderID => exact hid
    | _ => cases hid
  · rintro ⟨k, row, hrow, hid⟩
    refine ⟨⟨k, row⟩, AList.mem_lookup_iff.mp hrow, ?_⟩
    cases k with
    | items orderID => exact hid
    | _ => cases hid

theorem mem_itemIDs {rows : Rows} {id : Uuid} {items : List OrderItem}
    (h : rows.lookup (.items id) = some items) {item : OrderItem} (hitem : item ∈ items) :
    item.id ∈ itemIDs rows :=
  mem_itemIDs_iff.mpr ⟨.items id, items, h, List.mem_map.mpr ⟨item, hitem, rfl⟩⟩

theorem newItems_lines {ids : List Uuid} {lines : List ItemLine}
    (h : ids.length = lines.length) :
    itemLines (newItems ids lines) = lines.map fun line => (line.productID, line.quantity) := by
  induction ids generalizing lines with
  | nil =>
      rw [List.eq_nil_of_length_eq_zero h.symm]
      rfl
  | cons id ids ih =>
      cases lines with
      | nil => cases h
      | cons line lines =>
          have hrest := ih (Nat.succ.inj h)
          simp only [itemLines, newItems, List.zip_cons_cons, List.map_cons] at hrest ⊢
          rw [hrest]

theorem newItems_ids {ids : List Uuid} {lines : List ItemLine} {item : OrderItem}
    (h : item ∈ newItems ids lines) : item.id ∈ ids := by
  obtain ⟨⟨id, line⟩, hmem, rfl⟩ := List.mem_map.mp h
  exact (List.of_mem_zip hmem).1

/-- The new rows of `order_items` come after those of the order, if it has
    any. -/
theorem moves_insertItems {id : Uuid} {lines : List ItemLine} (hid : .items id ∉ written)
    (hknown : known (.items id) = none) :
    Moves request i (At i session written known present) (.insertItems id lines) fun _ s =>
      ∃ (old : Option (List OrderItem)) (added : List OrderItem),
        (itemLines added = lines.map fun line => (line.productID, line.quantity)) ∧
        (∀ item ∈ added, item.id ∉ (old.getD []).map OrderItem.id) ∧
        At i session (written.insert (.items id) (old.getD [] ++ added))
          (Function.update known (.items id) old) present s := by
  intro s generated answer s' _ hat hrun
  simp only [proceed] at hrun
  by_cases hfresh : freshIDs (s.db.view i) generated lines = true
  · rw [if_pos hfresh] at hrun
    obtain ⟨db, hdb, rfl, rfl⟩ := answerDb_eq hrun
    simp only [freshIDs, Bool.and_eq_true, decide_eq_true_eq, List.all_eq_true] at hfresh
    obtain ⟨⟨hlength, _⟩, hnew⟩ := hfresh
    refine ⟨?_, SessionStep.refl _ _⟩
    unfold insertItems at hdb
    cases hread : s.db.read i (.items id) with
    | none =>
        simp only [hread] at hdb
        refine ⟨none, newItems generated lines, newItems_lines hlength, fun _ _ h => ?_, ?_⟩
        · cases h
        · obtain ⟨_, _, hholds⟩ := hat.holds.insertRow hdb
          rw [Option.getD_none, List.nil_append, ← hknown, Function.update_eq_self]
          exact hat.withDb hholds (RowStore.insertRow_rows hdb)
    | some old =>
        simp only [hread] at hdb
        obtain ⟨⟨result, db₁⟩, hupdate, rfl⟩ := Option.map_eq_some_iff.mp hdb
        refine ⟨some old, newItems generated lines, newItems_lines hlength, fun item hitem h => ?_,
          ?_⟩
        · obtain ⟨item', hitem', heq⟩ := List.mem_map.mp h
          refine hnew item.id (newItems_ids hitem) ?_
          rw [← heq]
          exact mem_itemIDs hread hitem'
        · rcases hat.holds.update hid hupdate with
            ⟨_, hnone, _⟩ | ⟨row, hrow, ⟨hcheck, _, _⟩ | ⟨rfl, hholds⟩⟩
          · rw [hat.holds.read_of_notMem hid, hnone] at hread
            cases hread
          · cases hcheck
          · rw [hat.holds.read_of_notMem hid, hrow, Option.some.injEq] at hread
            subst hread
            exact hat.withDb hholds (RowStore.update_rows hupdate)
  · rw [if_neg hfresh] at hrun
    cases hrun

theorem moves_deleteItems {id : Uuid} {ids : List Uuid} {items : List OrderItem}
    (hitems : written.lookup (.items id) = some items) :
    Moves request i (At i session written known present) (.deleteItems id ids) fun _ =>
      At i session (written.insert (.items id)
        (items.filter fun item => decide (item.id ∉ ids))) known present := by
  intro s generated answer s' _ hat hrun
  obtain ⟨db, hdb, rfl, rfl⟩ := answerDb_eq hrun
  obtain ⟨⟨result, db₁⟩, hupdate, rfl⟩ := Option.map_eq_some_iff.mp hdb
  refine ⟨?_, SessionStep.refl _ _⟩
  rcases hat.holds.update_written hitems hupdate with ⟨hcheck, _, _⟩ | ⟨rfl, hholds⟩
  · cases hcheck
  · exact hat.withDb hholds (RowStore.update_rows hupdate)

end Moves

end SoaHomework.Marketplace

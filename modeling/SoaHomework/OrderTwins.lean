import SoaHomework.AlikeTables
import SoaHomework.HandlerStatements
import SoaHomework.Placements

/-!
# Programs on alike tables

Rules for two handlers that run side by side on tables that differ in order lines
only. Both succeed or both fail. What they commit is alike again (`Level`), and while
they run without a failure so is what they see (`Even`).
-/

namespace SoaHomework.Marketplace

open StatementProgram
open StatementProgram.Program (Twins)

/-- The items of every order add up to the same quantity of each product. -/
def SameOrders (items items' : Uuid → List OrderItem) : Prop :=
  ∀ id, SameTotals (itemLines (items id)) (itemLines (items' id))

/-- Alike tables whose orders add up to the same. -/
def Even (t t' : Draft) : Prop :=
  ∃ committed committed' items items', SameOrders committed committed' ∧
    SameOrders items items' ∧ Alike committed committed' items items' t t'

/-- The committed rows are alike. -/
def Level (t t' : Draft) : Prop :=
  ∃ committed committed', SameOrders committed committed' ∧
    AlikeRows committed committed' t.rows t'.rows

theorem Even.level {t t' : Draft} (h : Even t t') : Level t t' := by
  obtain ⟨committed, committed', _, _, hcommitted, _, halike⟩ := h
  exact ⟨committed, committed', hcommitted, halike.rows⟩

/-- Nothing is written yet. -/
def Reading (t₀ t₀' t t' : Draft) : Prop := t = t₀ ∧ t' = t₀'

theorem Statement.plain_of_looks {statement : Statement} (h : statement.looks = true) :
    statement.plain = true := by
  cases statement with
  | insertItems id lines => cases h
  | deleteItems id ids => cases h
  | commit => cases h
  | selectActiveOrder id => cases h
  | selectProductsForUpdate ids => cases h
  | selectItems id => cases h
  | _ => rfl

section Rules

variable {committed committed' items items' : Uuid → List OrderItem} {t t' t₀ t₀' : Draft}
  {draw draw' : Draw}

theorem effect_looks {statement : Statement} (h : statement.looks = true)
    {answer : Answer statement} (hrun : onDraft draw statement t = some (answer, t')) :
    t' = t := by
  cases statement with
  | now => exact (congrArg Prod.snd (Option.some.inj hrun)).symm
  | selectUser id => exact (congrArg Prod.snd (Option.some.inj hrun)).symm
  | selectLastOperation userID operationType =>
      exact (congrArg Prod.snd (Option.some.inj hrun)).symm
  | selectProduct id => exact (congrArg Prod.snd (Option.some.inj hrun)).symm
  | selectPromoByCode code => exact (congrArg Prod.snd (Option.some.inj hrun)).symm
  | selectPromo id => exact (congrArg Prod.snd (Option.some.inj hrun)).symm
  | selectOrder id => exact (congrArg Prod.snd (Option.some.inj hrun)).symm
  | _ => cases h

/-! ## Programs that are their own twins -/

/-- Programs of statements that only look. -/
theorem twins_looks (hdraw : SameDraw draw draw') (heven : Even t₀ t₀') {α : Type}
    {p : Handler α} (hp : p.Uses fun statement => statement.looks = true) :
    Twins (onDraft draw) (onDraft draw') Level (Reading t₀ t₀') p p
      fun value value' t t' => value' = value ∧ Reading t₀ t₀' t t' := by
  obtain ⟨committed, committed', items, items', hcommitted, hitems, halike⟩ := heven
  refine Twins.of_uses ?_ ?_ hp
  · rintro t t' ⟨rfl, rfl⟩
    exact ⟨committed, committed', hcommitted, halike.rows⟩
  · rintro statement t t' hlooks ⟨rfl, rfl⟩ answer s hrun answer' s' hrun'
    obtain ⟨hanswer, _⟩ :=
      halike.effect hdraw (Statement.plain_of_looks hlooks) answer s hrun answer' s' hrun'
    exact ⟨hanswer, effect_looks hlooks hrun, effect_looks hlooks hrun'⟩

/-- Programs of plain statements. -/
theorem twins_plain (hdraw : SameDraw draw draw') (hcommitted : SameOrders committed committed')
    {α : Type} {p : Handler α}
    (hp : p.Uses fun statement => statement.plain = true) :
    Twins (onDraft draw) (onDraft draw') Level (Alike committed committed' items items') p p
      fun value value' t t' => value' = value ∧ Alike committed committed' items items' t t' := by
  refine Twins.of_uses ?_ ?_ hp
  · intro t t' h
    exact ⟨committed, committed', hcommitted, h.rows⟩
  · intro statement t t' hplain h
    exact h.effect hdraw hplain

theorem Alike.commit (h : Alike committed committed' items items' t t') :
    Alike items items' items items' ⟨t.seen, ∅⟩ ⟨t'.seen, ∅⟩ := by
  constructor
  · exact h.seen
  · rw [Draft.seen_of_written, Draft.seen_of_written]
    exact h.seen

/-- Programs of plain statements and commits. -/
theorem twins_even (hdraw : SameDraw draw draw') {α : Type} {p : Handler α}
    (hp : p.Uses fun statement => statement.plain = true ∨ statement = .commit) :
    Twins (onDraft draw) (onDraft draw') Level Even p p
      fun value value' t t' => value' = value ∧ Even t t' := by
  refine Twins.of_uses ?_ ?_ hp
  · exact fun t t' h => h.level
  · rintro statement t t' hstatement ⟨committed, committed', items, items', hcommitted, hitems, h⟩
    rcases hstatement with hplain | rfl
    · intro answer s hrun answer' s' hrun'
      obtain ⟨hanswer, halike⟩ := h.effect hdraw hplain answer s hrun answer' s' hrun'
      exact ⟨hanswer, committed, committed', items, items', hcommitted, hitems, halike⟩
    · rintro _ _ ⟨⟩ _ _ ⟨⟩
      exact ⟨rfl, items, items', items, items', hitems, hitems, h.commit⟩

/-! ## Queries with other answers -/

variable {α α' : Type} {pre : Draft → Draft → Prop}

/-- A query that succeeds on both. -/
theorem twins_query {statement statement' : Statement}
    {middle : Result statement → Result statement' → Draft → Draft → Prop}
    (h : ∀ t t', pre t t' → ∀ answer s, onDraft draw statement t = some (answer, s) →
      ∀ answer' s', onDraft draw' statement' t' = some (answer', s') →
        ∃ value value', answer = .ok value ∧ answer' = .ok value' ∧ middle value value' s s') :
    Twins (onDraft draw) (onDraft draw') Level pre (query statement) (query statement')
      middle := by
  apply Twins.step fun answer answer' s s' =>
    ∃ value value', answer = .ok value ∧ answer' = .ok value' ∧ middle value value' s s'
  · exact h
  · intro answer answer'
    rintro s s' ⟨value, value', rfl, rfl, hmiddle⟩
    rintro _ _ ⟨⟩ _ _ ⟨⟩
    exact Or.inl ⟨value, value', rfl, rfl, hmiddle⟩

/-- A `SELECT` while nothing is written. -/
theorem twins_read {statement statement' : Statement} {value : Result statement}
    {value' : Result statement'} {next : Result statement → Handler α}
    {next' : Result statement' → Handler α'} {post : α → α' → Draft → Draft → Prop}
    (h : answerOf t₀.seen statement = some value) (h' : answerOf t₀'.seen statement' = some value')
    (hnext : Twins (onDraft draw) (onDraft draw') Level (Reading t₀ t₀') (next value)
      (next' value') post) :
    Twins (onDraft draw) (onDraft draw') Level (Reading t₀ t₀') (query statement >>= next)
      (query statement' >>= next') post := by
  apply Twins.bind fun read read' t t' => (read = value ∧ read' = value') ∧ Reading t₀ t₀' t t'
  · apply twins_query
    rintro _ _ ⟨rfl, rfl⟩ answer s hrun answer' s' hrun'
    rw [effect_read h] at hrun
    rw [effect_read h'] at hrun'
    cases hrun
    cases hrun'
    exact ⟨value, value', rfl, rfl, ⟨rfl, rfl⟩, rfl, rfl⟩
  · intro read read'
    apply Twins.assume fun t t' h => h.left
    rintro ⟨rfl, rfl⟩
    exact hnext.mono (fun t t' h => h.right) fun _ _ _ _ h => h

/-- The order as it is answered, with its items. -/
theorem twins_orderResponse (hdraw : SameDraw draw draw') (id : Uuid) :
    Twins (onDraft draw) (onDraft draw') Level Even (orderResponse id) (orderResponse id)
      fun _ _ => Even := by
  have hrefresh : (query (.refreshOrder id)).Uses
      fun statement => statement.plain = true ∨ statement = .commit := by
    refine ⟨Or.inl rfl, fun answer => ?_⟩
    cases answer with
    | ok result => trivial
    | error error => trivial
  apply Twins.bind_same (twins_even hdraw hrefresh)
  intro order
  cases order with
  | none => exact Twins.fail fun t t' h => h.level
  | some order =>
      apply Twins.bind fun _ _ => Even
      · apply twins_query
        rintro t t' h _ _ ⟨⟩ _ _ ⟨⟩
        exact ⟨_, _, rfl, rfl, h⟩
      · intro value value'
        exact Twins.ret fun _ _ h => h

/-! ## Items -/

theorem SameTotals.append {lines lines' more more' : List (Uuid × Int)}
    (h : SameTotals lines lines') (hmore : SameTotals more more') :
    SameTotals (lines ++ more) (lines' ++ more') := by
  intro p
  rw [quantityOf_append, quantityOf_append, h p, hmore p]

theorem SameOrders.update (h : SameOrders items items') (id : Uuid) {new new' : List OrderItem}
    (hnew : SameTotals (itemLines new) (itemLines new')) :
    SameOrders (Function.update items id new) (Function.update items' id new') := by
  intro id'
  by_cases heq : id' = id
  · subst heq
    rw [Function.update_self, Function.update_self]
    exact hnew
  · rw [Function.update_of_ne heq, Function.update_of_ne heq]
    exact h id'

theorem twins_insertItems (id : Uuid) {lines lines' : List ItemLine}
    (hlines : SameTotals (placedLines lines) (placedLines lines')) :
    Twins (onDraft draw) (onDraft draw') Level Even (query (.insertItems id lines))
      (query (.insertItems id lines')) fun _ _ => Even := by
  apply twins_query
  rintro t t' ⟨committed, committed', items, items', hcommitted, hitems, h⟩ answer s hrun answer'
    s' hrun'
  obtain ⟨rfl, new, hnew, _, rfl⟩ := effect_insertItems hrun
  obtain ⟨rfl, new', hnew', _, rfl⟩ := effect_insertItems hrun'
  refine ⟨(), (), rfl, rfl, committed, committed', _, _, hcommitted, ?_, h.putItems id _ _⟩
  apply hitems.update
  rw [h.seen.items, h.seen.items', itemLines, itemLines, List.map_append, List.map_append]
  apply (hitems id).append
  change SameTotals (itemLines new) (itemLines new')
  rw [hnew, hnew']
  exact hlines

/-- The items of an order are replaced. -/
theorem twins_replaceItems (hcommitted : SameOrders committed committed')
    (hitems : SameOrders items items') (id : Uuid) {lines lines' : List ItemLine}
    (hlines : SameTotals (placedLines lines) (placedLines lines')) {next next' : Handler α}
    {post : α → α → Draft → Draft → Prop}
    (hnext : Twins (onDraft draw) (onDraft draw') Level Even next next' post) :
    Twins (onDraft draw) (onDraft draw') Level (Alike committed committed' items items')
      (query (.insertItems id lines) >>= fun _ =>
        query (.deleteItems id ((items id).map OrderItem.id)) >>= fun _ => next)
      (query (.insertItems id lines') >>= fun _ =>
        query (.deleteItems id ((items' id).map OrderItem.id)) >>= fun _ => next') post := by
  apply Twins.bind fun _ _ t t' => ∃ new new' before before',
    Alike committed committed' items items' before before' ∧
      Inserted id lines (items id) new before t ∧ Inserted id lines' (items' id) new' before' t'
  · apply twins_query
    intro t t' h answer s hrun answer' s' hrun'
    obtain ⟨rfl, new, hnew, hfresh, rfl⟩ := effect_insertItems hrun
    obtain ⟨rfl, new', hnew', hfresh', rfl⟩ := effect_insertItems hrun'
    rw [h.seen.items] at hfresh
    rw [h.seen.items'] at hfresh'
    rw [h.seen.items, h.seen.items']
    exact ⟨(), (), rfl, rfl, new, new', t, t', h, ⟨hnew, hfresh, rfl⟩, ⟨hnew', hfresh', rfl⟩⟩
  · intro _ _
    apply Twins.bind fun _ _ => Even
    · apply twins_query
      rintro t t' ⟨new, new', before, before', h, hinserted, hinserted'⟩ answer s hrun answer' s'
        hrun'
      rw [hinserted.delete, Option.some.injEq, Prod.mk.injEq] at hrun
      rw [hinserted'.delete, Option.some.injEq, Prod.mk.injEq] at hrun'
      obtain ⟨rfl, rfl⟩ := hrun
      obtain ⟨rfl, rfl⟩ := hrun'
      have hput := (h.putItems id (items id ++ new) (items' id ++ new')).putItems id new new'
      rw [← hinserted.put, ← hinserted'.put, Function.update_idem, Function.update_idem] at hput
      refine ⟨(), (), rfl, rfl, committed, committed', _, _, hcommitted, ?_, hput⟩
      apply hitems.update
      rw [hinserted.lines, hinserted'.lines]
      exact hlines
    · intro _ _
      exact hnext

/-! ## Stocks -/

/-- Flushing the same changes, in any order. -/
theorem twins_flushStocks (draw draw' : Draw) (hcommitted : SameOrders committed committed')
    (h : Alike committed committed' items items' t₀ t₀')
    {changes changes' : List (Uuid × Int)} (hperm : changes.Perm changes')
    (hnodup : (changes.map Prod.fst).Nodup) :
    Twins (onDraft draw) (onDraft draw') Level (Reading t₀ t₀') (flushStocks changes)
      (flushStocks changes') fun _ _ => Alike committed committed' items items' := by
  have hnodup' : (changes'.map Prod.fst).Nodup := (hperm.map Prod.fst).nodup_iff.mp hnodup
  have hstorable : Storable t₀'.seen changes' ↔ Storable t₀.seen changes := by
    have hrow : ∀ change : Uuid × Int,
        t₀'.seen.lookup (.product change.1) = t₀.seen.lookup (.product change.1) :=
      fun change => h.seen.same _ fun _ => nofun
    constructor
    · intro hall change hmem
      rw [← hrow change]
      exact hall change (hperm.mem_iff.mp hmem)
    · intro hall change hmem
      rw [hrow change]
      exact hall change (hperm.mem_iff.mpr hmem)
  intro t t' hreading result s hrun result' s' hrun'
  rw [hreading.left] at hrun
  rw [hreading.right] at hrun'
  by_cases hflush : Storable t₀.seen changes
  · rw [alone_flushStocks hnodup hflush] at hrun
    rw [alone_flushStocks hnodup' (hstorable.mpr hflush)] at hrun'
    cases hrun
    cases hrun'
    refine Or.inl ⟨(), (), rfl, rfl, ?_, ?_⟩
    · rw [Draft.putStocks_rows, Draft.putStocks_rows]
      exact h.rows
    · apply h.seen.putStocks hperm hnodup
      intro change hmem
      obtain ⟨product, hrow, _⟩ := hflush change hmem
      exact ⟨product, hrow⟩
  · obtain ⟨error, s₁, hfail, hrows, _⟩ := alone_flushStocks_error draw hnodup hflush
    obtain ⟨error', s₁', hfail', hrows', _⟩ :=
      alone_flushStocks_error draw' hnodup' (mt hstorable.mp hflush)
    rw [hfail] at hrun
    rw [hfail'] at hrun'
    cases hrun
    cases hrun'
    refine Or.inr ⟨error, error', rfl, rfl, committed, committed', hcommitted, ?_⟩
    rw [hrows, hrows']
    exact h.rows

end Rules

end SoaHomework.Marketplace

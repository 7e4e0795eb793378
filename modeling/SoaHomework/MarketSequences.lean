import SoaHomework.CommittedTurns
import SoaHomework.MarketPromos

/-!
# Runs of requests one after another

In a run that starts a request only when none is running, a request finds the
rows as it has loaded them until it commits (`Sequential`), and every step
leaves the committed rows or commits what its handler has computed from them
(`Sequential.step`).
-/

namespace SoaHomework.Marketplace

open StatementProgram

variable {shown : Set Int} {settings : Settings} {rows₀ : Rows} {pool final : MarketPool}
  {event : MarketEvent}

/-- A request starts only when none is running, and the clock shows only times
    in `shown`. -/
def oneByOne (shown : Set Int) (pool : MarketPool) (event : MarketEvent) : Prop :=
  pool.inTurn event = true ∧ ∀ tick : Tick, event = .outside tick → tick.clock ∈ shown

/-- The invariant of requests one after another. -/
structure Sequential (shown : Set Int) (settings : Settings) (pool : MarketPool) : Prop where
  turns : (turns shown).Turns (service settings) pool
  separate : Separate settings pool
  promo : ∀ i request program, pool.Runs i request program → ∀ q promo,
    (sessionOf pool i).promo = some (q, promo) → (rowsOf pool).lookup (.promo q) = some promo

theorem sequential_start (hrows : Stored rows₀) (hclock : 0 ∈ shown) :
    Sequential shown settings (start rows₀) where
  turns := Discipline.turns_initial ⟨hclock, RowStore.consistent_ofRows hrows.codes⟩ fun _ => rfl
  separate := separate_initial hrows
  promo i request program hi := by simp [Pool.Runs] at hi

theorem separate_of_inTurn (h : pool.inTurn event = true) : separate pool event = true := by
  cases event with
  | start request =>
      refine List.all_eq_true.mpr fun j hj => ?_
      have hidle := List.all_eq_true.mp h j hj
      rw [Bool.not_eq_true'] at hidle
      rw [hidle, Bool.false_and, Bool.not_false]
  | _ => rfl

theorem Sequential.next (h : Sequential shown settings pool) (hturn : oneByOne shown pool event)
    (hnext : (service settings).next pool event = some final) :
    Sequential shown settings final where
  turns := by
    refine Discipline.turns_next turns_sound h.turns ⟨hturn.1, fun tick s hevent hs => ?_⟩ hnext
    simp only [service, Option.some.injEq] at hs
    subst hs
    exact ⟨hturn.2 tick hevent, h.turns.inv.2⟩
  separate := h.separate.next (separate_of_inTurn hturn.1) hnext
  promo i request program hi q promo hpromo := by
    rcases Service.runs_of_next hnext hi with ⟨before, hi'⟩ | ⟨rfl, hlen⟩
    · rcases step_effect h.separate.holds hnext with ⟨hrows, hsessions⟩ |
        ⟨k, request', ⟨_, _, _, hk⟩, _, hempty, _⟩
      · rw [hrows]
        rcases (hsessions i request before hi').promo q promo hpromo with hold | hrow
        · exact h.promo i request before hi' q promo hold
        · exact hrow
      · -- the request that commits is the only one that is running
        obtain rfl := h.turns.single k i _ _ _ _ hk hi'
        rw [hempty] at hpromo
        cases hpromo
    · rw [session_started h.separate.holds hnext hlen] at hpromo
      cases hpromo

/-- A request that is about to commit has computed what it commits from the
    committed rows. -/
theorem Sequential.commit (h : Sequential shown settings pool) {i : Nat} {request : Request}
    {next : Answer .commit → Handler Response} (hruns : pool.Runs i request (.step .commit next)) :
    Commit (rowsOf pool) (pool.shared.db.pending i) request :=
  h.turns.known turns_sound hruns rfl

theorem rows_of_proceed {i : Nat} {generated : List Uuid} {request : Request}
    {next : Answer .commit → Handler Response} (hruns : pool.Runs i request (.step .commit next))
    (hnext : (service settings).next pool (.step i (.proceed generated)) = some final) :
    rowsOf final = pool.shared.db.pending i ∪ rowsOf pool := by
  simp only [Service.next, Service.program?_eq_some.mpr ⟨request, hruns⟩,
    Option.map_eq_some_iff] at hnext
  obtain ⟨⟨answer, s⟩, hexec, rfl⟩ := hnext
  have hproceed : proceed i generated pool.shared .commit = some (answer, s) := hexec
  obtain ⟨_, rfl⟩ := answerLoaded_eq hproceed
  rfl

/-- A step leaves the committed rows or commits what its handler has computed
    from them. -/
theorem Sequential.step (h : Sequential shown settings pool)
    (hnext : (service settings).next pool event = some final) :
    rowsOf final = rowsOf pool ∨ ∃ i request, Commits pool event i request ∧
      Effect (sessionOf pool i) (pool.shared.db.pending i) (rowsOf pool) (rowsOf final) request ∧
      Commit (rowsOf pool) (pool.shared.db.pending i) request ∧
      rowsOf final = pool.shared.db.pending i ∪ rowsOf pool := by
  rcases step_effect h.separate.holds hnext with ⟨hrows, _⟩ | ⟨i, request, hcommits, heffect, _, _⟩
  · exact Or.inl hrows
  · obtain ⟨choice, next, rfl, hruns⟩ := hcommits
    cases choice with
    | failure =>
        simp only [Service.next, Service.program?_eq_some.mpr ⟨request, hruns⟩,
          Option.map_eq_some_iff] at hnext
        obtain ⟨⟨answer, s⟩, hexec, rfl⟩ := hnext
        exact Or.inl (congrArg (fun s : State => s.db.rows) (execute_failure (i := i) hexec).2)
    | proceed generated =>
        exact Or.inr ⟨i, request, ⟨_, next, rfl, hruns⟩, heffect, h.commit hruns,
          rows_of_proceed hruns hnext⟩

/-- What a session has read of a promo code is committed when it commits. -/
theorem Sequential.loadedUses (h : Sequential shown settings pool) (event : MarketEvent) :
    loadedUses pool event = true := by
  cases event with
  | step i choice =>
      cases hprogram : pool.program? i with
      | none => simp only [Marketplace.loadedUses, hprogram]
      | some program =>
          obtain ⟨request, hruns⟩ := Service.program?_eq_some.mp hprogram
          have hcurrent : usesCurrent (sessionOf pool i) (pool.shared.db.pending i)
              (rowsOf pool) = true := by
            unfold usesCurrent
            cases hpromo : (sessionOf pool i).promo with
            | none => rfl
            | some loaded =>
                obtain ⟨q, promo⟩ := loaded
                simp only [h.promo i request program hruns q promo hpromo, Option.all_some,
                  decide_true, Bool.or_true]
          simp only [Marketplace.loadedUses, hprogram]
          split
          · exact hcurrent
          · rfl
  | _ => rfl

end SoaHomework.Marketplace

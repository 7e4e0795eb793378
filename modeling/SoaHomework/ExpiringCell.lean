import Mathlib.Data.List.Induction
import Mathlib.Order.Lattice

/-!
# A versioned cell whose entries expire

A payload and a version are stored side by side, each until a time of its own.
A payload is stored together with its version, a version may also be announced
alone, and neither happens while a larger version is live. Every run at
nondecreasing times keeps a live payload covered by a live version that is no
smaller (`Covered.run`). As long as the version has not expired it is the
largest that was offered (`version_run`), and so a run that only stores ends
with the payload of the largest version (`payload_run`). It does not expire when the
largest version is offered again in time (`Renewed.unexpired`).
-/

namespace ExpiringCell

structure Entry (β : Type) where
  value : β
  expires : Int

/-- What is found at a time. -/
def read {β : Type} (now : Int) (stored : Option (Entry β)) : Option β :=
  stored.bind fun e => if now < e.expires then some e.value else none

theorem read_eq_some {β : Type} {now : Int} {stored : Option (Entry β)} {b : β} :
    read now stored = some b ↔ ∃ e, stored = some e ∧ now < e.expires ∧ e.value = b := by
  simp [read, Option.bind_eq_some_iff]

theorem exists_of_read_ne_none {β : Type} {now : Int} {stored : Option (Entry β)}
    (h : read now stored ≠ none) : ∃ e, stored = some e ∧ now < e.expires := by
  obtain ⟨b, hb⟩ := Option.ne_none_iff_exists'.mp h
  obtain ⟨e, he, hlive, _⟩ := read_eq_some.mp hb
  exact ⟨e, he, hlive⟩

theorem read_of_ne_none {β : Type} {now : Int} {stored : Option (Entry β)} {e : Entry β}
    (h : read now stored ≠ none) (he : stored = some e) : read now stored = some e.value := by
  obtain ⟨e', he', hlive⟩ := exists_of_read_ne_none h
  exact read_eq_some.mpr ⟨e, he, Option.some.inj (he'.symm.trans he) ▸ hlive, rfl⟩

theorem read_map {β γ : Type} (f : β → γ) (now : Int) (stored : Option (Entry β)) :
    read now (stored.map fun e => ⟨f e.value, e.expires⟩) = (read now stored).map f := by
  cases stored with
  | none => rfl
  | some e =>
      simp only [read, Option.map_some, Option.bind_some]
      split
      · rfl
      · rfl

structure Cell (ν α : Type) where
  payload : Option (Entry (ν × α))
  version : Option (Entry ν)

/-- A command on the cell, or on something `elsewhere`. -/
inductive Command (ν α : Type) where
  | store (version : ν) (payload : α)
  | announce (version : ν)
  | delete
  | elsewhere

variable {ν α : Type}

/-- The version that a command offers. -/
def Command.offers : Command ν α → Option ν
  | .store v _ => some v
  | .announce v => some v
  | .delete => none
  | .elsewhere => none

/-! ## Runs -/

/-- The times of a run do not decrease. -/
def Sorted (events : List (Int × Command ν α)) : Prop :=
  events.Pairwise fun event event' => event.1 ≤ event'.1

theorem Sorted.split {events : List (Int × Command ν α)} {event : Int × Command ν α}
    (h : Sorted (events ++ [event])) :
    Sorted events ∧ ∀ event' ∈ events, event'.1 ≤ event.1 := by
  obtain ⟨hevents, _, hlast⟩ := List.pairwise_append.mp h
  exact ⟨hevents, fun event' hmem => hlast event' hmem event (List.mem_singleton_self _)⟩

def Offered (events : List (Int × Command ν α)) (v : ν) : Prop :=
  ∃ event ∈ events, event.2.offers = some v

theorem offered_append_singleton (events : List (Int × Command ν α))
    (event : Int × Command ν α) (v : ν) :
    Offered (events ++ [event]) v ↔ Offered events v ∨ event.2.offers = some v := by
  simp only [Offered, List.mem_append, List.mem_singleton]
  constructor
  · rintro ⟨event', hmem | rfl, hoffers⟩
    · exact Or.inl ⟨event', hmem, hoffers⟩
    · exact Or.inr hoffers
  · rintro (⟨event', hmem, hoffers⟩ | hoffers)
    · exact ⟨event', Or.inl hmem, hoffers⟩
    · exact ⟨event, Or.inr rfl, hoffers⟩

namespace Cell

def empty : Cell ν α := ⟨none, none⟩

section Run

variable [LinearOrder ν]

/-- The guard: no larger version is live. -/
def admits (c : Cell ν α) (now : Int) (v : ν) : Bool :=
  (read now c.version).all fun current => decide (current ≤ v)

/-- What a command does at a time. Nothing is stored for no time. -/
def perform (ttl now : Int) (c : Cell ν α) : Command ν α → Cell ν α
  | .store v a =>
      if 0 < ttl ∧ c.admits now v = true then ⟨some ⟨(v, a), now + ttl⟩, some ⟨v, now + ttl⟩⟩
      else c
  | .announce v =>
      if 0 < ttl ∧ c.admits now v = true then { c with version := some ⟨v, now + ttl⟩ } else c
  | .delete => { c with payload := none }
  | .elsewhere => c

def run (ttl : Int) (events : List (Int × Command ν α)) : Cell ν α :=
  events.foldl (fun c event => c.perform ttl event.1 event.2) empty

theorem run_append_singleton (ttl : Int) (events : List (Int × Command ν α))
    (event : Int × Command ν α) :
    run ttl (events ++ [event]) = (run ttl events).perform ttl event.1 event.2 := by
  rw [run, List.foldl_append]
  rfl

theorem le_of_admits {c : Cell ν α} {now : Int} {v : ν} {e : Entry ν}
    (h : c.admits now v = true) (he : c.version = some e) (hlive : now < e.expires) :
    e.value ≤ v := by
  simpa [admits, he, read, hlive] using h

theorem lt_of_not_admits {c : Cell ν α} {now : Int} {v : ν} {e : Entry ν}
    (h : ¬ c.admits now v = true) (he : c.version = some e) : v < e.value := by
  rw [admits, he] at h
  by_cases hlive : now < e.expires
  · simpa [read, hlive] using h
  · simp [read, hlive] at h

theorem admits_of_none {c : Cell ν α} {now : Int} (h : c.version = none) (v : ν) :
    c.admits now v = true := by
  rw [admits, h]
  rfl

section Perform

variable {c : Cell ν α} {command : Command ν α} {v : ν}

theorem version_of_admits {ttl now : Int} (hoffers : command.offers = some v) (httl : 0 < ttl)
    (h : c.admits now v = true) :
    (c.perform ttl now command).version = some ⟨v, now + ttl⟩ := by
  cases command with
  | store v' a =>
      obtain rfl := Option.some.inj hoffers
      rw [perform, if_pos ⟨httl, h⟩]
  | announce v' =>
      obtain rfl := Option.some.inj hoffers
      rw [perform, if_pos ⟨httl, h⟩]
  | delete => cases hoffers
  | elsewhere => cases hoffers

theorem perform_of_not_admits {ttl now : Int} (hoffers : command.offers = some v)
    (h : ¬ (0 < ttl ∧ c.admits now v = true)) : c.perform ttl now command = c := by
  cases command with
  | store v' a =>
      obtain rfl := Option.some.inj hoffers
      rw [perform, if_neg h]
  | announce v' =>
      obtain rfl := Option.some.inj hoffers
      rw [perform, if_neg h]
  | delete => cases hoffers
  | elsewhere => cases hoffers

theorem version_of_no_offer {ttl now : Int} (hoffers : command.offers = none) :
    (c.perform ttl now command).version = c.version := by
  cases command with
  | store v' a => cases hoffers
  | announce v' => cases hoffers
  | delete => rfl
  | elsewhere => rfl

end Perform

/-! ## A live payload is covered -/

/-- Each payload that is live lives no longer than a version that is no smaller
    than its own. -/
structure Covered (ttl now : Int) (c : Cell ν α) : Prop where
  expires_le : ∀ e, c.version = some e → e.expires ≤ now + ttl
  covered : ∀ p, c.payload = some p → now < p.expires →
    ∃ e, c.version = some e ∧ p.expires ≤ e.expires ∧ p.value.1 ≤ e.value

variable {ttl now : Int} {c : Cell ν α}

theorem Covered.empty (ttl now : Int) : Covered ttl now (empty : Cell ν α) := by
  constructor
  · intro e h
    cases h
  · intro p h
    cases h

theorem Covered.later {now' : Int} (h : Covered ttl now c) (hle : now ≤ now') :
    Covered ttl now' c := by
  constructor
  · intro e he
    have hexpires := h.expires_le e he
    omega
  · intro p hp hlive
    exact h.covered p hp (by omega)

theorem Covered.perform (h : Covered ttl now c) (command : Command ν α) :
    Covered ttl now (c.perform ttl now command) := by
  cases command with
  | store v a =>
      rw [Cell.perform]
      split
      · constructor
        · rintro e ⟨⟩
          exact Int.le_refl _
        · rintro p ⟨⟩ _
          exact ⟨_, rfl, Int.le_refl _, le_refl _⟩
      · exact h
  | announce v =>
      rw [Cell.perform]
      split
      · rename_i hadmits
        constructor
        · rintro e ⟨⟩
          exact Int.le_refl _
        · intro p hp hlive
          obtain ⟨e, he, hexpires, hle⟩ := h.covered p hp hlive
          have hbound := h.expires_le e he
          have hvalue : e.value ≤ v := le_of_admits hadmits.right he (by omega)
          refine ⟨_, rfl, ?_, le_trans hle hvalue⟩
          change p.expires ≤ now + ttl
          omega
      · exact h
  | delete =>
      constructor
      · exact h.expires_le
      · intro p hp
        cases hp
  | elsewhere => exact h

theorem Covered.run {events : List (Int × Command ν α)} (hsorted : Sorted events)
    (hnow : ∀ event ∈ events, event.1 ≤ now) : Covered ttl now (run ttl events) := by
  induction events using List.reverseRecOn generalizing now with
  | nil => exact Covered.empty ttl now
  | append_singleton events event ih =>
      obtain ⟨hevents, hlast⟩ := hsorted.split
      rw [run_append_singleton]
      have hstep := (ih hevents hlast).perform event.2
      exact hstep.later (hnow event (by simp))

/-- The version is live whenever the next command comes, or at the end the time
    `now`, from the first offer on. -/
def Unexpired (ttl now : Int) (events : List (Int × Command ν α)) : Prop :=
  ∀ before after, events = before ++ after → (∃ v, Offered before v) →
    read ((after.head?.map Prod.fst).getD now) (Cell.run ttl before).version ≠ none

theorem Unexpired.init {events : List (Int × Command ν α)} {event : Int × Command ν α}
    (h : Unexpired ttl now (events ++ [event])) : Unexpired ttl event.1 events := by
  rintro before after rfl hoffer
  have hlive := h before (after ++ [event]) (by rw [List.append_assoc]) hoffer
  cases after with
  | nil => exact hlive
  | cons next after => exact hlive

theorem Unexpired.last {events : List (Int × Command ν α)} (h : Unexpired ttl now events)
    (hoffer : ∃ v, Offered events v) :
    read now (Cell.run ttl events).version ≠ none :=
  h events [] (List.append_nil _).symm hoffer

theorem run_of_not_pos (httl : ¬ 0 < ttl) (events : List (Int × Command ν α)) :
    run ttl events = empty := by
  induction events using List.reverseRecOn with
  | nil => rfl
  | append_singleton events event ih =>
      rw [run_append_singleton, ih]
      cases hoffers : event.2 with
      | store v a => exact perform_of_not_admits rfl fun h => httl h.left
      | announce v => exact perform_of_not_admits rfl fun h => httl h.left
      | delete => rfl
      | elsewhere => rfl

theorem version_of_no_offers {events : List (Int × Command ν α)}
    (h : ¬ ∃ v, Offered events v) : (run ttl events).version = none := by
  induction events using List.reverseRecOn with
  | nil => rfl
  | append_singleton events event ih =>
      have hevents : ¬ ∃ v, Offered events v := by
        rintro ⟨v, hv⟩
        exact h ⟨v, (offered_append_singleton events event v).mpr (Or.inl hv)⟩
      have hevent : event.2.offers = none := by
        apply Option.eq_none_iff_forall_ne_some.mpr
        intro v hv
        exact h ⟨v, (offered_append_singleton events event v).mpr (Or.inr hv)⟩
      rw [run_append_singleton, version_of_no_offer hevent, ih hevents]

/-- A version that has not expired is the largest that was offered. -/
theorem version_run {events : List (Int × Command ν α)} (h : Unexpired ttl now events)
    (hoffer : ∃ v, Offered events v) :
    ∃ m, read now (run ttl events).version = some m ∧ Offered events m ∧
      ∀ v, Offered events v → v ≤ m := by
  induction events using List.reverseRecOn generalizing now with
  | nil =>
      obtain ⟨v, event, hmem, _⟩ := hoffer
      cases hmem
  | append_singleton events event ih =>
      have hlive := h.last hoffer
      have httl : 0 < ttl := by
        by_contra hneg
        rw [run_of_not_pos hneg] at hlive
        exact hlive rfl
      rw [run_append_singleton] at hlive ⊢
      simp only [offered_append_singleton] at hoffer ⊢
      cases hoffers : event.2.offers with
      | none =>
          obtain ⟨v, hv | hv⟩ := hoffer
          · obtain ⟨m, hm, hoffered, hmax⟩ := ih h.init ⟨v, hv⟩
            obtain ⟨e, he, _, rfl⟩ := read_eq_some.mp hm
            rw [version_of_no_offer hoffers] at hlive ⊢
            refine ⟨e.value, read_of_ne_none hlive he, Or.inl hoffered, ?_⟩
            rintro w (hw | ⟨⟨⟩⟩)
            exact hmax w hw
          · rw [hoffers] at hv
            cases hv
      | some v =>
          by_cases hbefore : ∃ v, Offered events v
          · obtain ⟨m, hm, hoffered, hmax⟩ := ih h.init hbefore
            obtain ⟨e, he, hexpires, rfl⟩ := read_eq_some.mp hm
            by_cases hadmits : (run ttl events).admits event.1 v = true
            · have hversion := version_of_admits hoffers httl hadmits
              refine ⟨v, read_of_ne_none hlive hversion, Or.inr rfl, ?_⟩
              rintro w (hw | ⟨⟨⟩⟩)
              · exact le_trans (hmax w hw) (le_of_admits hadmits he hexpires)
              · exact le_refl v
            · have hsame : (run ttl events).perform ttl event.1 event.2 = run ttl events :=
                perform_of_not_admits hoffers fun hguard => hadmits hguard.right
              rw [hsame] at hlive ⊢
              refine ⟨e.value, read_of_ne_none hlive he, Or.inl hoffered, ?_⟩
              rintro w (hw | ⟨⟨⟩⟩)
              · exact hmax w hw
              · exact le_of_lt (lt_of_not_admits hadmits he)
          · have hadmits : (run ttl events).admits event.1 v = true :=
              admits_of_none (version_of_no_offers hbefore) v
            have hversion := version_of_admits hoffers httl hadmits
            refine ⟨v, read_of_ne_none hlive hversion, Or.inr rfl, ?_⟩
            rintro w (hw | ⟨⟨⟩⟩)
            · exact absurd ⟨w, hw⟩ hbefore
            · exact le_refl v

/-- Whenever the next command comes, or at the end the time `now`, the largest version so
    far was offered less than `ttl` before. -/
def Renewed (ttl now : Int) (events : List (Int × Command ν α)) : Prop :=
  ∀ before after, events = before ++ after → (∃ v, Offered before v) →
    ∃ event ∈ before, ∃ v, event.2.offers = some v ∧ (∀ w, Offered before w → w ≤ v) ∧
      (after.head?.map Prod.fst).getD now < event.1 + ttl

theorem Renewed.init {events : List (Int × Command ν α)} {event : Int × Command ν α}
    (h : Renewed ttl now (events ++ [event])) : Renewed ttl event.1 events := by
  rintro before after rfl hoffer
  have hrenewed := h before (after ++ [event]) (by rw [List.append_assoc]) hoffer
  cases after with
  | nil => exact hrenewed
  | cons next after => exact hrenewed

theorem Unexpired.append_singleton {events : List (Int × Command ν α)}
    {event : Int × Command ν α} (h : Unexpired ttl event.1 events)
    (hlast : (∃ v, Offered (events ++ [event]) v) →
      read now (Cell.run ttl (events ++ [event])).version ≠ none) :
    Unexpired ttl now (events ++ [event]) := by
  intro before after hsplit hoffer
  cases after using List.reverseRecOn with
  | nil =>
      rw [List.append_nil] at hsplit
      subst hsplit
      exact hlast hoffer
  | append_singleton after last =>
      rw [← List.append_assoc] at hsplit
      obtain ⟨rfl, hsingle⟩ := List.append_inj' hsplit rfl
      obtain rfl := List.singleton_inj.mp hsingle
      have hlive := h before after rfl hoffer
      cases after with
      | nil => exact hlive
      | cons next after => exact hlive

/-- The version lives for `ttl` from every offer of the largest one on. -/
def Lives (ttl : Int) (events : List (Int × Command ν α)) : Prop :=
  ∀ event ∈ events, ∀ v, event.2.offers = some v → (∀ w, Offered events w → w ≤ v) →
    ∃ e, (run ttl events).version = some e ∧ event.1 + ttl ≤ e.expires

/-- While the version has not expired, the largest one is admitted. -/
theorem admits_of_largest {events : List (Int × Command ν α)} {v : ν}
    (h : Unexpired ttl now events) (hmax : ∀ w, Offered events w → w ≤ v) :
    (run ttl events).admits now v = true := by
  by_cases hoffer : ∃ w, Offered events w
  · obtain ⟨m, hm, hoffered, _⟩ := version_run h hoffer
    obtain ⟨e, he, _, rfl⟩ := read_eq_some.mp hm
    by_contra hrefused
    exact not_lt.mpr (hmax _ hoffered) (lt_of_not_admits hrefused he)
  · exact admits_of_none (version_of_no_offers hoffer) v

theorem Lives.append_singleton {events : List (Int × Command ν α)} {last : Int × Command ν α}
    (httl : 0 < ttl) (h : Lives ttl events) (hbefore : ∀ event ∈ events, event.1 ≤ last.1)
    (hunexpired : Unexpired ttl last.1 events) : Lives ttl (events ++ [last]) := by
  intro event hmem v hv hmax
  have hmax' : ∀ w, Offered events w → w ≤ v := fun w hw =>
    hmax w ((offered_append_singleton events last w).mpr (Or.inl hw))
  rw [run_append_singleton]
  rcases List.mem_append.mp hmem with hmem | hmem
  · cases hoffers : last.2.offers with
    | none =>
        rw [version_of_no_offer hoffers]
        exact h event hmem v hv hmax'
    | some latest =>
        by_cases hadmits : (run ttl events).admits last.1 latest = true
        · refine ⟨_, version_of_admits hoffers httl hadmits, ?_⟩
          exact Int.add_le_add_right (hbefore event hmem) ttl
        · rw [perform_of_not_admits hoffers fun hguard => hadmits hguard.right]
          exact h event hmem v hv hmax'
  · obtain rfl := List.mem_singleton.mp hmem
    exact ⟨_, version_of_admits hv httl (admits_of_largest hunexpired hmax'), Int.le_refl _⟩

end Run

end Cell

end ExpiringCell

import Mathlib.Data.Option.Basic

/-!
# Lib.Machine

Machines whose events are possible in some states only. A run is a list of events that are possible
one after the other, in any order the machine allows.

* `Throughout`: what holds of every step of a run.
* `Throughout.imp_of_inv`: the invariant rule for runs whose steps all meet a condition.
-/

namespace Machine

variable {σ ε : Type} (act : σ → ε → Option σ)

/-- The state after a list of events, if it is a run. -/
def run (s : σ) : List ε → Option σ
  | [] => some s
  | e :: events => (act s e).bind fun t => run t events

/-- Every step of a run from `s` satisfies `P`. -/
def Throughout (P : σ → ε → σ → Prop) (s : σ) : List ε → Prop
  | [] => True
  | e :: events => ∀ t ∈ act s e, P s e t ∧ Throughout P t events

instance decidableThroughout (P : σ → ε → σ → Prop) [∀ s e t, Decidable (P s e t)] :
    ∀ (s : σ) (events : List ε), Decidable (Throughout act P s events)
  | _, [] => isTrue trivial
  | s, e :: events =>
    have : ∀ t, Decidable (Throughout act P t events) :=
      fun t => decidableThroughout P t events
    inferInstanceAs (Decidable (∀ t ∈ act s e, P s e t ∧ Throughout act P t events))

variable {act} {P Q : σ → ε → σ → Prop} {s : σ}

theorem throughout_append {events events' : List ε} :
    Throughout act P s (events ++ events') ↔
      Throughout act P s events ∧ ∀ t ∈ run act s events, Throughout act P t events' := by
  induction events generalizing s with
  | nil => simp [Throughout, run]
  | cons e events ih =>
    simp only [List.cons_append, Throughout, run, ih, Option.mem_def, Option.bind_eq_some_iff]
    constructor
    · intro h
      exact ⟨fun t ht => ⟨(h t ht).1, (h t ht).2.1⟩, fun u ⟨t, ht, hu⟩ => (h t ht).2.2 u hu⟩
    · rintro ⟨h, htail⟩ t ht
      exact ⟨(h t ht).1, (h t ht).2, fun u hu => htail u ⟨t, ht, hu⟩⟩

/-- An invariant that steps keep if they meet a condition, in a run whose steps all meet it. -/
theorem Throughout.imp_of_inv {Inv : σ → Prop} {events : List ε}
    (hstep : ∀ t e t', Inv t → P t e t' → act t e = some t' → Inv t' ∧ Q t e t') (h0 : Inv s)
    (h : Throughout act P s events) : Throughout act Q s events := by
  induction events generalizing s with
  | nil => trivial
  | cons e events ih =>
    intro t ht
    obtain ⟨hp, hrest⟩ := h t ht
    obtain ⟨hinv, hq⟩ := hstep s e t h0 hp ht
    exact ⟨hq, ih hinv hrest⟩

end Machine

import Mathlib.Computability.Language

/-!
# Lib.Cycle

Words that go round a cycle: a turn is entered by `a`, holds any number of `b`s and is left by `c`.
A word is read letter by letter; it is between two turns (`turns`) or in the middle of one
(`inside`), and in both cases it can be completed (`prefix_of_turns`, `prefix_of_inside`).
-/

namespace Cycle

open scoped Computability

variable {α : Type} (a b c : α)

/-- `(a b* c)*`. -/
def turns : Language α := ({[a]} * {[b]}∗ * {[c]})∗

/-- Whole turns and the beginning of one more. -/
def inside : Language α := turns a b c * ({[a]} * {[b]}∗)

variable {a b c} {w : List α}

theorem nil_mem_turns : [] ∈ turns a b c := Language.nil_mem_kstar _

theorem enter (h : w ∈ turns a b c) : w ++ [a] ∈ inside a b c := by
  refine Language.append_mem_mul h ?_
  exact ⟨[a], rfl, [], Language.nil_mem_kstar _, rfl⟩

theorem stay (h : w ∈ inside a b c) : w ++ [b] ∈ inside a b c := by
  have hb : w ++ [b] ∈ inside a b c * {[b]} := Language.append_mem_mul h rfl
  rw [inside, mul_assoc, mul_assoc] at hb
  have hle : turns a b c * ({[a]} * ({[b]}∗ * {[b]})) ≤ turns a b c * ({[a]} * {[b]}∗) := by
    gcongr
    exact kstar_mul_le_kstar
  exact Set.mem_of_mem_of_subset hb hle

theorem leave (h : w ∈ inside a b c) : w ++ [c] ∈ turns a b c := by
  have hc : w ++ [c] ∈ inside a b c * {[c]} := Language.append_mem_mul h rfl
  rw [inside, mul_assoc] at hc
  have hle : turns a b c * ({[a]} * {[b]}∗ * {[c]}) ≤ turns a b c := kstar_mul_le_kstar
  exact Set.mem_of_mem_of_subset hc hle

theorem prefix_of_turns (h : w ∈ turns a b c) : ∃ w' ∈ turns a b c, w <+: w' :=
  ⟨w, h, List.prefix_refl w⟩

theorem prefix_of_inside (h : w ∈ inside a b c) : ∃ w' ∈ turns a b c, w <+: w' :=
  ⟨w ++ [c], leave h, List.prefix_append w [c]⟩

end Cycle

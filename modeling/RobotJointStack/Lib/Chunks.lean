import Mathlib.Data.List.Basic

/-!
# Lib.Chunks

A list cut into pieces of at most `k` elements, for a buffer that holds no more.

* `flatten_pieces`: the pieces make up the list again.
* `length_mem_pieces`: no piece is empty or longer than `k`.
* `length_pieces`: how many there are.
-/

namespace Chunks

variable {α : Type} {k : Nat}

/-- Pieces of `k` elements, and a shorter one for what is left. -/
def pieces (k : Nat) (hk : 0 < k) (l : List α) : List (List α) :=
  if _h : l = [] then [] else l.take k :: pieces k hk (l.drop k)
termination_by l.length
decreasing_by
  have := List.length_pos_iff.mpr _h
  rw [List.length_drop]
  omega

variable (hk : 0 < k)

@[simp] theorem pieces_nil : pieces k hk ([] : List α) = [] := by rw [pieces, dif_pos rfl]

theorem pieces_of_ne_nil {l : List α} (h : l ≠ []) :
    pieces k hk l = l.take k :: pieces k hk (l.drop k) := by rw [pieces, dif_neg h]

theorem flatten_pieces (l : List α) : (pieces k hk l).flatten = l := by
  fun_induction pieces k hk l with
  | case1 => rfl
  | case2 l h ih => rw [List.flatten_cons, ih, List.take_append_drop]

theorem length_mem_pieces {l p : List α} (h : p ∈ pieces k hk l) : 1 ≤ p.length ∧ p.length ≤ k := by
  fun_induction pieces k hk l with
  | case1 => cases h
  | case2 l hne ih =>
    cases h with
    | head =>
      have hpos := List.length_pos_iff.mpr hne
      rw [List.length_take]
      omega
    | tail _ h => exact ih h

theorem length_pieces (l : List α) : (pieces k hk l).length = (l.length + k - 1) / k := by
  fun_induction pieces k hk l with
  | case1 =>
    rw [List.length_nil, List.length_nil, Nat.zero_add]
    exact (Nat.div_eq_of_lt (Nat.sub_lt hk Nat.one_pos)).symm
  | case2 l h ih =>
    have hpos := List.length_pos_iff.mpr h
    rw [List.length_cons, ih, List.length_drop]
    by_cases hle : k ≤ l.length
    · have hsplit : l.length + k - 1 = (l.length - k + k - 1) + k := by omega
      rw [hsplit, Nat.add_div_right _ hk]
    · have hlast : l.length - k + k - 1 < k := by omega
      have hrest : l.length + k - 1 = (l.length - 1) + k := by omega
      rw [Nat.div_eq_of_lt hlast, hrest, Nat.add_div_right _ hk, Nat.div_eq_of_lt (by omega)]

end Chunks

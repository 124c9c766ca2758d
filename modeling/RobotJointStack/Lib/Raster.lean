import Mathlib.Logic.Basic

/-!
# Lib.Raster

A picture memory that is written through a window, line by line. A cursor goes over the window from
its first corner; behind the last place it starts again.

* `Written`: the first `n` pixels of a source are in the window, and nothing else has changed.
* `written_put`: the next pixel goes to the next place.
* `written_puts`: so a whole list of pixels fills the window in row-major order.
-/

/-- A window: the first and the last column, the first and the last row. -/
structure Window where
  left : Nat
  right : Nat
  top : Nat
  bottom : Nat

structure Raster (α : Type) where
  window : Window
  col : Nat
  row : Nat
  ram : Nat → Nat → α

namespace Window

variable (v : Window)

def width : Nat := v.right - v.left + 1

theorem width_pos : 0 < v.width := Nat.succ_pos _

def height : Nat := v.bottom - v.top + 1

def Contains (c r : Nat) : Prop := (v.left ≤ c ∧ c ≤ v.right) ∧ v.top ≤ r ∧ r ≤ v.bottom

instance (c r : Nat) : Decidable (v.Contains c r) := inferInstanceAs (Decidable (_ ∧ _))

/-- The place of a pixel in the row-major order of the window. -/
def index (c r : Nat) : Nat := (r - v.top) * v.width + (c - v.left)

variable {v}

/-- The pixel of number `n` is in column `n % width` of line `n / width`. -/
theorem index_eq_iff {c r n : Nat} (h : v.Contains c r) :
    v.index c r = n ↔ c = v.left + n % v.width ∧ r = v.top + n / v.width := by
  obtain ⟨⟨hc, hc'⟩, hr, -⟩ := h
  have hlt : c - v.left < v.width := by unfold width; omega
  have hmod : v.index c r % v.width = c - v.left := by
    rw [index, Nat.mul_add_mod_of_lt hlt]
  have hdiv : v.index c r / v.width = r - v.top := by
    rw [index, Nat.mul_comm, Nat.mul_add_div (Nat.zero_lt_of_lt hlt), Nat.div_eq_of_lt hlt,
      Nat.add_zero]
  constructor
  · rintro rfl
    rw [hmod, hdiv]
    omega
  · rintro ⟨rfl, rfl⟩
    rw [index, Nat.add_sub_cancel_left, Nat.add_sub_cancel_left, Nat.div_add_mod']

theorem index_lt {c r : Nat} (h : v.Contains c r) : v.index c r < v.width * v.height := by
  obtain ⟨⟨hc, hc'⟩, hr, hr'⟩ := h
  have hcol : c - v.left < v.width := by unfold width; omega
  have hrow : r - v.top + 1 ≤ v.height := by unfold height; omega
  calc v.index c r
      < (r - v.top) * v.width + v.width := Nat.add_lt_add_left hcol _
    _ = (r - v.top + 1) * v.width := (Nat.succ_mul _ _).symm
    _ ≤ v.height * v.width := Nat.mul_le_mul_right _ hrow
    _ = v.width * v.height := Nat.mul_comm _ _

end Window

namespace Raster

variable {α : Type}

/-- The cursor at the first corner of the window. -/
def rewind (r : Raster α) : Raster α := { r with col := r.window.left, row := r.window.top }

/-- A pixel at the cursor, which goes on. -/
def put (r : Raster α) (a : α) : Raster α where
  window := r.window
  col := if r.col < r.window.right then r.col + 1 else r.window.left
  row :=
    if r.col < r.window.right then r.row
    else if r.row < r.window.bottom then r.row + 1 else r.window.top
  ram := fun c l => if c = r.col ∧ l = r.row then a else r.ram c l

/-- The first `n` pixels of `src` are in the window `v`, over the picture `ram`. -/
structure Written (v : Window) (src : Nat → α) (ram : Nat → Nat → α) (n : Nat) (r : Raster α) :
    Prop where
  window : r.window = v
  cursor : n < v.width * v.height →
    r.col = v.left + n % v.width ∧ r.row = v.top + n / v.width
  ram : ∀ c l, r.ram c l =
    if v.Contains c l ∧ v.index c l < n then src (v.index c l) else ram c l

section Written

variable {v : Window} {src : Nat → α} {ram : Nat → Nat → α} {n : Nat} {r : Raster α}

theorem written_rewind (r : Raster α) (src : Nat → α) :
    Written r.window src r.ram 0 r.rewind where
  window := rfl
  cursor _ := by simp [rewind]
  ram c l := by simp [rewind]

variable (hcols : v.left ≤ v.right) (hrows : v.top ≤ v.bottom)
include hcols hrows

/-- The cursor is inside, at the place of the pixel that comes next. -/
theorem Written.at_cursor (h : Written v src ram n r) (hn : n < v.width * v.height) :
    v.Contains r.col r.row ∧ v.index r.col r.row = n := by
  obtain ⟨hcol, hrow⟩ := h.cursor hn
  have hmod : n % v.width < v.right - v.left + 1 := Nat.mod_lt n v.width_pos
  have hdiv : n / v.width < v.bottom - v.top + 1 := Nat.div_lt_of_lt_mul hn
  have hin : v.Contains r.col r.row := by
    rw [hcol, hrow]
    exact ⟨⟨Nat.le_add_right _ _, by omega⟩, Nat.le_add_right _ _, by omega⟩
  exact ⟨hin, (Window.index_eq_iff hin).mpr ⟨hcol, hrow⟩⟩

theorem written_put (h : Written v src ram n r) (hn : n < v.width * v.height) :
    Written v src ram (n + 1) (r.put (src n)) := by
  obtain ⟨hin, hat⟩ := h.at_cursor hcols hrows hn
  obtain ⟨hcol, hrow⟩ := h.cursor hn
  refine ⟨h.window, fun hn' => ?_, fun c l => ?_⟩
  · -- the next place is on the same line, unless this was the last of it
    have hmod : n % v.width < v.width := Nat.mod_lt n v.width_pos
    have hwidth : v.width = v.right - v.left + 1 := rfl
    have hdiv : (n + 1) / v.width < v.bottom - v.top + 1 := Nat.div_lt_of_lt_mul hn'
    have hnext := Nat.div_add_mod n v.width
    by_cases hlast : n % v.width + 1 = v.width
    · have hsucc : n + 1 = v.width * (n / v.width + 1) := by rw [Nat.mul_succ]; omega
      have hend : ¬r.col < r.window.right := by rw [hcol, h.window]; omega
      have hline : (n + 1) / v.width = n / v.width + 1 := by
        rw [hsucc, Nat.mul_div_cancel_left _ v.width_pos]
      have hmore : r.row < r.window.bottom := by rw [hrow, h.window]; omega
      simp only [put, if_neg hend, if_pos hmore]
      rw [hline, hsucc, Nat.mul_mod_right, hrow, h.window]
      exact ⟨rfl, rfl⟩
    · have hsucc : n + 1 = v.width * (n / v.width) + (n % v.width + 1) := by omega
      have hlt : n % v.width + 1 < v.width := by omega
      have hmore : r.col < r.window.right := by rw [hcol, h.window]; omega
      simp only [put, if_pos hmore]
      rw [hsucc, Nat.mul_add_mod, Nat.mod_eq_of_lt hlt, Nat.mul_add_div v.width_pos,
        Nat.div_eq_of_lt hlt, hcol, hrow]
      exact ⟨rfl, rfl⟩
  · show (if c = r.col ∧ l = r.row then src n else r.ram c l) = _
    rw [h.ram]
    by_cases hplace : c = r.col ∧ l = r.row
    · obtain ⟨rfl, rfl⟩ := hplace
      rw [if_pos ⟨rfl, rfl⟩, if_pos ⟨hin, by omega⟩, hat]
    · rw [if_neg hplace]
      have hne : v.Contains c l → v.index c l ≠ n := by
        intro hc hi
        obtain ⟨e, e'⟩ := (Window.index_eq_iff hc).mp hi
        exact hplace ⟨e.trans hcol.symm, e'.trans hrow.symm⟩
      have hiff : v.Contains c l ∧ v.index c l < n ↔ v.Contains c l ∧ v.index c l < n + 1 :=
        and_congr_right fun hc => by have := hne hc; omega
      simp only [hiff]

/-- A row of pixels, the first of them at the first corner. -/
theorem written_puts (h : Written v src ram 0 r) {n : Nat} (hn : n ≤ v.width * v.height) :
    Written v src ram n (((List.range n).map src).foldl put r) := by
  induction n with
  | zero => exact h
  | succ n ih =>
    rw [List.range_succ, List.map_append, List.foldl_append]
    exact written_put hcols hrows (ih (Nat.le_of_succ_le hn)) hn

/-- A full window. -/
theorem ram_fill (h : Written v src ram 0 r) (c l : Nat) :
    (((List.range (v.width * v.height)).map src).foldl put r).ram c l =
      if v.Contains c l then src (v.index c l) else ram c l := by
  rw [(written_puts hcols hrows h (Nat.le_refl _)).ram]
  exact if_congr (and_iff_left_of_imp Window.index_lt) rfl rfl

end Written

end Raster

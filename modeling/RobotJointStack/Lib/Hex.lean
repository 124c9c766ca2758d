import Mathlib.Data.List.Basic
import Mathlib.Tactic.IntervalCases
import Mathlib.Tactic.Ring

/-!
# Lib.Hex

Hexadecimal texts: numbers and bytes written with a minimal width in upper case, and read back in
either case.

* `value_padded`, `bytes_padded`: what is written is read back.
* `value_append`: the value of a text from its parts.
-/

namespace Hex

/-- The value of a hexadecimal digit. -/
def digit? (c : Char) : Option Nat :=
  if '0' ≤ c ∧ c ≤ '9' then some (c.toNat - 48)
  else if 'A' ≤ c ∧ c ≤ 'F' then some (c.toNat - 55)
  else if 'a' ≤ c ∧ c ≤ 'f' then some (c.toNat - 87)
  else none

def isDigit (c : Char) : Bool := (digit? c).isSome

def upper (n : Nat) : Char := Char.ofNat (if n < 10 then 48 + n else 55 + n)

/-- `%X`. -/
def digits (n : Nat) : List Char :=
  if n < 16 then [upper n] else digits (n / 16) ++ [upper (n % 16)]

/-- `%0*X`. -/
def padded (width n : Nat) : List Char :=
  List.replicate (width - (digits n).length) '0' ++ digits n

/-- The number that a text of digits stands for. -/
def value (text : List Char) : Nat := text.foldl (fun n c => 16 * n + (digit? c).getD 0) 0

/-- The bytes that a text stands for, two digits a byte. -/
def bytes? : List Char → Option (List UInt8)
  | [] => some []
  | [_] => none
  | a :: b :: text =>
    match digit? a, digit? b, bytes? text with
    | some x, some y, some bytes => some (UInt8.ofNat (16 * x + y) :: bytes)
    | _, _, _ => none

theorem digit_upper {n : Nat} (h : n < 16) : digit? (upper n) = some n := by
  interval_cases n <;> rfl

/-- The three ranges of digits. -/
theorem digit_ranges {c : Char} {x : Nat} (h : digit? c = some x) :
    (48 ≤ c.toNat ∧ c.toNat ≤ 57 ∧ x = c.toNat - 48) ∨
      (65 ≤ c.toNat ∧ c.toNat ≤ 70 ∧ x = c.toNat - 55) ∨
        (97 ≤ c.toNat ∧ c.toNat ≤ 102 ∧ x = c.toNat - 87) := by
  have hle : ∀ {a b : Char}, a ≤ b → a.toNat ≤ b.toNat := fun h => h
  unfold digit? at h
  split at h
  · rename_i hc
    cases h
    exact .inl ⟨hle hc.1, hle hc.2, rfl⟩
  · split at h
    · rename_i hc
      cases h
      exact .inr (.inl ⟨hle hc.1, hle hc.2, rfl⟩)
    · split at h
      · rename_i hc
        cases h
        exact .inr (.inr ⟨hle hc.1, hle hc.2, rfl⟩)
      · cases h

theorem isDigit_bounds {c : Char} (h : isDigit c = true) : 48 ≤ c.toNat ∧ c.toNat ≤ 102 := by
  obtain ⟨x, hx⟩ := Option.isSome_iff_exists.mp h
  have hranges := digit_ranges hx
  omega

theorem digit_lt {c : Char} {x : Nat} (h : digit? c = some x) : x < 16 := by
  have hranges := digit_ranges h
  omega

/-- A digit below ten has one spelling. -/
theorem eq_upper {c : Char} {x : Nat} (h : digit? c = some x) (hx : x < 10) : c = upper x := by
  have hc : c.toNat = 48 + x := by
    have hranges := digit_ranges h
    omega
  rw [upper, if_pos hx, ← hc, Char.ofNat_toNat]

/-! ## Numbers -/

theorem foldl_value (text : List Char) (n : Nat) :
    text.foldl (fun n c => 16 * n + (digit? c).getD 0) n =
      n * 16 ^ text.length + value text := by
  induction text generalizing n with
  | nil => simp [value]
  | cons c text ih =>
    rw [value, List.foldl_cons, List.foldl_cons, ih, ih (16 * 0 + _), List.length_cons,
      Nat.pow_succ]
    ring

theorem value_append (text text' : List Char) :
    value (text ++ text') = value text * 16 ^ text'.length + value text' := by
  rw [value, List.foldl_append, foldl_value]; rfl

theorem value_replicate (k : Nat) (text : List Char) :
    value (List.replicate k '0' ++ text) = value text := by
  induction k with
  | zero => rfl
  | succ k ih => exact ih

/-- Only zeros stand for zero. -/
theorem value_eq_zero {text : List Char} (h : ∀ c ∈ text, isDigit c = true)
    (hz : value text = 0) : text = List.replicate text.length '0' := by
  refine List.eq_replicate_iff.mpr ⟨rfl, fun c hc => ?_⟩
  obtain ⟨front, back, rfl⟩ := List.append_of_mem hc
  obtain ⟨x, hx⟩ := Option.isSome_iff_exists.mp (h c hc)
  have hc0 : value [c] = x := by simp [value, hx]
  rw [value_append, ← List.singleton_append, value_append, hc0] at hz
  have hx0 : x = 0 := by
    have hpos : 0 < 16 ^ back.length := Nat.pow_pos (by decide)
    rcases Nat.eq_zero_or_pos x with h0 | hpos'
    · exact h0
    · have := Nat.mul_pos hpos' hpos
      omega
  rw [hx0] at hx
  exact eq_upper hx (by decide)

theorem value_digits (n : Nat) : value (digits n) = n := by
  induction n using Nat.strongRecOn with
  | ind n ih =>
    rw [digits]
    split
    · rename_i h
      simp [value, digit_upper h]
    · rename_i h
      have hmod : value [upper (n % 16)] = n % 16 := by
        simp [value, digit_upper (Nat.mod_lt n (by decide))]
      rw [value_append, ih (n / 16) (by omega), hmod, List.length_singleton]
      omega

theorem value_padded (width n : Nat) : value (padded width n) = n := by
  rw [padded, value_replicate, value_digits]

theorem isDigit_digits (n : Nat) : ∀ c ∈ digits n, isDigit c = true := by
  induction n using Nat.strongRecOn with
  | ind n ih =>
    have hlast : ∀ m < 16, isDigit (upper m) = true := by
      intro m h
      rw [isDigit, digit_upper h]; rfl
    rw [digits]
    split
    · rename_i h
      simpa using hlast n h
    · rename_i h
      rw [List.forall_mem_append]
      exact ⟨ih (n / 16) (by omega), by simpa using hlast (n % 16) (Nat.mod_lt n (by decide))⟩

theorem isDigit_padded (width n : Nat) : ∀ c ∈ padded width n, isDigit c = true := by
  rw [padded, List.forall_mem_append]
  refine ⟨fun c hc => ?_, isDigit_digits n⟩
  rw [List.eq_of_mem_replicate hc]; rfl

theorem length_digits {k n : Nat} (h : n < 16 ^ (k + 1)) : (digits n).length ≤ k + 1 := by
  induction k generalizing n with
  | zero =>
    rw [digits, if_pos (by simpa using h)]; simp
  | succ k ih =>
    rw [digits]
    split
    · simp
    · have hdiv : n / 16 < 16 ^ (k + 1) := by
        rw [Nat.div_lt_iff_lt_mul (by decide), ← Nat.pow_succ]; exact h
      have := ih hdiv
      rw [List.length_append, List.length_singleton]
      omega

theorem length_padded (width : Nat) {k n : Nat} (h : n < 16 ^ (k + 1)) (hw : width ≤ k + 1) :
    width ≤ (padded width n).length ∧ (padded width n).length ≤ k + 1 := by
  have := length_digits h
  rw [padded, List.length_append, List.length_replicate]
  omega

/-! ## Bytes -/

theorem padded_byte (b : UInt8) :
    padded 2 b.toNat = [upper (b.toNat / 16), upper (b.toNat % 16)] := by
  have hb : b.toNat < 256 := b.toNat_lt
  rw [padded, digits]
  split
  · rename_i h
    rw [Nat.div_eq_of_lt h, Nat.mod_eq_of_lt h]; rfl
  · rw [digits, if_pos (show b.toNat / 16 < 16 by omega)]; rfl

theorem bytes_padded (data : List UInt8) :
    bytes? (data.flatMap fun b => padded 2 b.toNat) = some data := by
  induction data with
  | nil => rfl
  | cons b data ih =>
    have hb : b.toNat < 256 := b.toNat_lt
    rw [List.flatMap_cons, padded_byte]
    simp only [List.cons_append, List.nil_append, bytes?, ih,
      digit_upper (show b.toNat / 16 < 16 by omega), digit_upper (show b.toNat % 16 < 16 by omega),
      Nat.div_add_mod, UInt8.ofNat_toNat]

end Hex

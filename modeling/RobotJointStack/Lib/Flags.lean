import Mathlib.Data.UInt

/-!
# Lib.Flags

Bits of a 16-bit flag word: setting or clearing one bit is seen in that bit and in no other.

* `eq_of_bits`: two words with two bits in use are the same if these are.
-/

namespace Flags

/-- Some bit of `bit` is set in `flags`. -/
def HasFlag (flags bit : UInt16) : Prop := flags &&& bit ≠ 0

instance (flags bit : UInt16) : Decidable (HasFlag flags bit) :=
  inferInstanceAs (Decidable (flags &&& bit ≠ 0))

variable {flags a b : UInt16}

theorem hasFlag_zero : ¬HasFlag 0 a := by simp [HasFlag]

theorem hasFlag_set (ha : a ≠ 0) : HasFlag (flags ||| a) a := by
  have h : (flags ||| a) &&& a = a := by
    apply UInt16.toBitVec_inj.mp
    ext i hi
    simpa using .inr
  rw [HasFlag, h]; exact ha

theorem not_hasFlag_clear : ¬HasFlag (flags &&& ~~~a) a := by
  have h : flags &&& ~~~a &&& a = 0 := by
    apply UInt16.toBitVec_inj.mp
    ext i hi
    simp
  simp [HasFlag, h]

/-- Setting a flag outside a mask. -/
theorem and_set_other {m : UInt16} (ham : a &&& m = 0) : (flags ||| a) &&& m = flags &&& m := by
  have hbits := congrArg UInt16.toBitVec ham
  apply UInt16.toBitVec_inj.mp
  ext i hi
  have hi' := congrArg (·[i]) hbits
  simp at hi' ⊢
  cases ha : a.toBitVec[i] <;> cases hm : m.toBitVec[i] <;> simp_all

/-- Setting a flag inside a mask. -/
theorem and_set_inside {m : UInt16} (h : flags &&& m = flags) (ham : a &&& m = a) :
    (flags ||| a) &&& m = flags ||| a := by
  have hbits := congrArg UInt16.toBitVec h
  have hbits' := congrArg UInt16.toBitVec ham
  apply UInt16.toBitVec_inj.mp
  ext i hi
  have hi' := congrArg (·[i]) hbits
  have ha' := congrArg (·[i]) hbits'
  simp at hi' ha' ⊢
  cases hf : flags.toBitVec[i] <;> cases ha : a.toBitVec[i] <;> simp_all

/-- Clearing flags. -/
theorem and_clear_inside {m : UInt16} (h : flags &&& m = flags) :
    flags &&& a &&& m = flags &&& a := by
  rw [UInt16.and_assoc, UInt16.and_comm a m, ← UInt16.and_assoc, h]

theorem hasFlag_set_other (hab : a &&& b = 0) : HasFlag (flags ||| a) b ↔ HasFlag flags b := by
  rw [HasFlag, HasFlag, and_set_other hab]

theorem hasFlag_clear_other (hab : a &&& b = 0) : HasFlag (flags &&& ~~~a) b ↔ HasFlag flags b := by
  have h : flags &&& ~~~a &&& b = flags &&& b := by
    have hbits := congrArg UInt16.toBitVec hab
    apply UInt16.toBitVec_inj.mp
    ext i hi
    have hi' := congrArg (·[i]) hbits
    simp at hi' ⊢
    cases ha : a.toBitVec[i] <;> cases hb : b.toBitVec[i] <;> simp_all
  rw [HasFlag, HasFlag, h]

/-- A flag of one bit. -/
theorem and_bit {k : Nat} (ha : a.toBitVec = BitVec.twoPow 16 k) :
    flags &&& a = if HasFlag flags a then a else 0 := by
  have h : flags &&& a = a ∨ flags &&& a = 0 := by
    rw [← UInt16.toBitVec_inj, ← UInt16.toBitVec_inj, UInt16.toBitVec_and, ha, BitVec.and_twoPow]
    split
    · exact .inl rfl
    · exact .inr rfl
  by_cases hset : HasFlag flags a
  · rw [if_pos hset, h.resolve_right hset]
  · rw [if_neg hset, not_not.mp hset]

/-- Words without other bits than two are told apart by these. -/
theorem eq_of_bits {f g : UInt16} {k l : Nat} (ha : a.toBitVec = BitVec.twoPow 16 k)
    (hb : b.toBitVec = BitVec.twoPow 16 l) (hf : f &&& (a ||| b) = f) (hg : g &&& (a ||| b) = g)
    (hfa : HasFlag f a ↔ HasFlag g a) (hfb : HasFlag f b ↔ HasFlag g b) : f = g := by
  have hor : ∀ h : UInt16, h &&& (a ||| b) = (h &&& a) ||| (h &&& b) := by
    intro h
    apply UInt16.toBitVec_inj.mp
    ext i hi
    simp [Bool.and_or_distrib_left]
  rw [← hf, ← hg, hor, hor, and_bit ha, and_bit ha, and_bit hb, and_bit hb, if_congr hfa rfl rfl,
    if_congr hfb rfl rfl]

end Flags

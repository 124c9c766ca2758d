import Mathlib.Data.UInt
import Mathlib.Logic.Function.Basic

/-!
# Lib.SharedCounter

A 32-bit counter that several parties increment without a lock. An increment is two steps: a party
loads the value, and later stores it one higher. What others have stored in between is lost.

* `Counts`: the counter never says more than what has been added, nor 0 once something has.
* `Exact`: it says exactly that, as long as only one party at a time is between the two steps.
* `Short`: once two have been, it says less, or it will when all have stored.
* `Holds`: which parties are between the two steps.
-/

structure SharedCounter (ι : Type) where
  value : UInt32
  held : ι → Option UInt32

namespace SharedCounter

section Steps

variable {ι : Type}

def zero : SharedCounter ι := ⟨0, fun _ => none⟩

variable [DecidableEq ι]

def load (c : SharedCounter ι) (i : ι) : SharedCounter ι :=
  { c with held := Function.update c.held i (some c.value) }

def store (c : SharedCounter ι) (i : ι) : SharedCounter ι :=
  match c.held i with
  | some v => ⟨v + 1, Function.update c.held i none⟩
  | none => c

end Steps

section Invariants

variable {ι : Type}

/-- After `added` increments the counter says `n`, up to 32 bits, and what a party holds it has said
before. -/
structure Counts (c : SharedCounter ι) (n added : Nat) : Prop where
  le : n ≤ added
  pos : 0 < added → 0 < n
  value : c.value = UInt32.ofNat n
  held : ∀ i v, c.held i = some v → ∃ m ≤ added, v = UInt32.ofNat m

/-- The counter is up to date, and so is everybody who has loaded it. -/
structure Exact (c : SharedCounter ι) (added : Nat) : Prop where
  value : c.value = UInt32.ofNat added
  held : ∀ i v, c.held i = some v → v = c.value

/-- The counter is behind, or will be: two parties are between the two steps, or one has an old
value, or what the counter and the parties say is all old. -/
inductive Short (c : SharedCounter ι) (added : Nat) : Prop where
  | overlap {i j : ι} {v w : UInt32} (hij : i ≠ j) (hi : c.held i = some v) (hj : c.held j = some w)
  | old {i : ι} {m : Nat} (hm : m < added) (hi : c.held i = some (UInt32.ofNat m))
  | behind {n : Nat} (hn : n < added) (hvalue : c.value = UInt32.ofNat n)
      (hheld : ∀ i v, c.held i = some v → ∃ m < added, v = UInt32.ofNat m)

/-- The parties between the two steps are those whose place is `between`. -/
def Holds {κ : Type} (c : SharedCounter ι) (place : ι → κ) (between : κ → Bool) : Prop :=
  ∀ i, (c.held i).isSome = between (place i)

variable {c : SharedCounter ι} {n added : Nat} {i : ι}

theorem counts_zero : Counts (zero : SharedCounter ι) 0 0 := ⟨le_rfl, id, rfl, nofun⟩

theorem exact_zero : Exact (zero : SharedCounter ι) 0 := ⟨rfl, nofun⟩

variable [DecidableEq ι]

theorem held_load (c : SharedCounter ι) (i : ι) : (c.load i).held i = some c.value :=
  Function.update_self _ _ _

theorem held_load_of_ne (c : SharedCounter ι) {i j : ι} (hji : j ≠ i) :
    (c.load i).held j = c.held j := Function.update_of_ne hji _ _

theorem held_store {v : UInt32} (hv : c.held i = some v) : (c.store i).held i = none := by
  simp only [SharedCounter.store, hv, Function.update_self]

theorem held_store_of_ne {v : UInt32} (hv : c.held i = some v) {j : ι} (hji : j ≠ i) :
    (c.store i).held j = c.held j := by
  simp only [SharedCounter.store, hv, Function.update_of_ne hji]

theorem value_store {v : UInt32} (hv : c.held i = some v) : (c.store i).value = v + 1 := by
  simp only [SharedCounter.store, hv]

theorem Counts.load (h : Counts c n added) : Counts (c.load i) n added where
  le := h.le
  pos := h.pos
  value := h.value
  held j v hj := by
    by_cases hji : j = i
    · subst hji
      rw [held_load] at hj
      exact ⟨n, h.le, Option.some.inj hj ▸ h.value⟩
    · rw [held_load_of_ne c hji] at hj
      exact h.held j v hj

/-- What the others hold after a store they held before it, and it was not more than `added`. -/
theorem Counts.held_store (h : Counts c n added) {v : UInt32} (hv : c.held i = some v) {j : ι}
    {w : UInt32} (hj : (c.store i).held j = some w) : ∃ m ≤ added, w = UInt32.ofNat m := by
  by_cases hji : j = i
  · subst hji
    rw [SharedCounter.held_store hv] at hj
    cases hj
  · rw [held_store_of_ne hv hji] at hj
    exact h.held j w hj

theorem Counts.store (h : Counts c n added) {v : UInt32} (hv : c.held i = some v) :
    ∃ n', Counts (c.store i) n' (added + 1) := by
  obtain ⟨m, hm, rfl⟩ := h.held i v hv
  refine ⟨m + 1, Nat.succ_le_succ hm, fun _ => Nat.succ_pos m, ?_, fun j w hj => ?_⟩
  · rw [value_store hv]
    exact (UInt32.ofNat_add m 1).symm
  · obtain ⟨k, hk, hw⟩ := h.held_store hv hj
    exact ⟨k, Nat.le_succ_of_le hk, hw⟩

theorem Exact.load (h : Exact c added) : Exact (c.load i) added where
  value := h.value
  held j v hj := by
    by_cases hji : j = i
    · subst hji
      rw [held_load] at hj
      exact (Option.some.inj hj).symm
    · rw [held_load_of_ne c hji] at hj
      exact h.held j v hj

theorem Exact.store (h : Exact c added) {v : UInt32} (hv : c.held i = some v)
    (halone : ∀ j, j ≠ i → c.held j = none) : Exact (c.store i) (added + 1) where
  value := by
    rw [value_store hv, h.held i v hv, h.value]
    exact (UInt32.ofNat_add added 1).symm
  held j v' hj := by
    by_cases hji : j = i
    · subst hji
      rw [held_store hv] at hj
      cases hj
    · rw [held_store_of_ne hv hji, halone j hji] at hj
      cases hj

theorem Short.load (h : Short c added) (hi : c.held i = none) : Short (c.load i) added := by
  have hne : ∀ {j v}, c.held j = some v → j ≠ i := by
    rintro j v hj rfl
    rw [hi] at hj
    cases hj
  cases h with
  | overlap hjk hj hk =>
    exact .overlap hjk ((held_load_of_ne c (hne hj)).trans hj)
      ((held_load_of_ne c (hne hk)).trans hk)
  | old hm hj => exact .old hm ((held_load_of_ne c (hne hj)).trans hj)
  | @behind n hn hvalue hheld =>
    refine .behind hn hvalue fun j v hj => ?_
    by_cases hji : j = i
    · subst hji
      rw [held_load] at hj
      exact ⟨n, hn, Option.some.inj hj ▸ hvalue⟩
    · rw [held_load_of_ne c hji] at hj
      exact hheld j v hj

/-- What is stored was loaded before, and what the others hold has become old. -/
theorem Short.store (h : Short c added) (hc : Counts c n added) {v : UInt32}
    (hv : c.held i = some v) : Short (c.store i) (added + 1) := by
  have hbehind : ∀ m < added, v = UInt32.ofNat m → Short (c.store i) (added + 1) := by
    rintro m hm rfl
    refine .behind (Nat.succ_lt_succ hm) ?_ fun j w hj => ?_
    · rw [value_store hv]
      exact (UInt32.ofNat_add m 1).symm
    · obtain ⟨k, hk, hw⟩ := hc.held_store hv hj
      exact ⟨k, Nat.lt_succ_of_le hk, hw⟩
  have hothers : ∀ j w, j ≠ i → c.held j = some w → Short (c.store i) (added + 1) := by
    intro j w hji hj
    obtain ⟨m, hm, rfl⟩ := hc.held j w hj
    exact .old (Nat.lt_succ_of_le hm) ((held_store_of_ne hv hji).trans hj)
  cases h with
  | @overlap j k w w' hjk hj hk =>
    by_cases hji : j = i
    · exact hothers k w' (fun hki => hjk (hji.trans hki.symm)) hk
    · exact hothers j w hji hj
  | @old j m hm hj =>
    by_cases hji : j = i
    · subst hji
      exact hbehind m hm (Option.some.inj (hv.symm.trans hj))
    · exact hothers j _ hji hj
  | behind hn hvalue hheld =>
    obtain ⟨m, hm, hvm⟩ := hheld i v hv
    exact hbehind m hm hvm

omit [DecidableEq ι] in
theorem Short.value_ne (h : Short c added) (hheld : ∀ i, c.held i = none) (hlt : added < 2 ^ 32) :
    c.value ≠ UInt32.ofNat added := by
  cases h with
  | overlap hij hi hj =>
    rw [hheld] at hi
    cases hi
  | old hm hi =>
    rw [hheld] at hi
    cases hi
  | behind hn hvalue =>
    intro heq
    have hmod := congrArg UInt32.toNat (hvalue.symm.trans heq)
    rw [UInt32.toNat_ofNat', UInt32.toNat_ofNat'] at hmod
    omega

/-! ## The parties between the two steps -/

variable {κ : Type} {place : ι → κ} {between : κ → Bool} {k : κ}

theorem Holds.move (h : Holds c place between) (hk : between k = between (place i)) :
    Holds c (Function.update place i k) between := by
  intro j
  by_cases hji : j = i
  · subst hji
    rw [Function.update_self, hk]
    exact h j
  · rw [Function.update_of_ne hji]
    exact h j

theorem Holds.load (h : Holds c place between) (hk : between k = true) :
    Holds (c.load i) (Function.update place i k) between := by
  intro j
  by_cases hji : j = i
  · subst hji
    rw [Function.update_self, held_load, hk, Option.isSome_some]
  · rw [Function.update_of_ne hji, held_load_of_ne c hji]
    exact h j

omit [DecidableEq ι] in
theorem Holds.held (h : Holds c place between) (hi : between (place i) = true) :
    ∃ v, c.held i = some v := Option.isSome_iff_exists.mp ((h i).trans hi)

omit [DecidableEq ι] in
theorem Holds.none (h : Holds c place between) (hi : between (place i) = false) :
    c.held i = none :=
  Option.isNone_iff_eq_none.mp (Option.isSome_eq_false_iff.mp ((h i).trans hi))

theorem Holds.store (h : Holds c place between) (hi : between (place i) = true)
    (hk : between k = false) : Holds (c.store i) (Function.update place i k) between := by
  obtain ⟨v, hv⟩ := h.held hi
  intro j
  by_cases hji : j = i
  · subst hji
    rw [Function.update_self, held_store hv, hk, Option.isSome_none]
  · rw [Function.update_of_ne hji, held_store_of_ne hv hji]
    exact h j

end Invariants

end SharedCounter

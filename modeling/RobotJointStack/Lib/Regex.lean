import Mathlib.Data.List.TakeWhile

/-!
# Lib.Regex

A backtracking matcher for patterns of character classes with greedy repetition, optional parts and
named groups. A repetition is tried longest first; the rest of the pattern is a continuation, so
what it makes of each attempt decides.

* `rep_eq_some`: a repetition that the pattern has no use for more of matches the longest run, if it
  matches at all.
* `longest_eq_some`: a repetition always matches the longest run where the rest of the pattern
  agrees.
-/

inductive Regex (α : Type) where
  | one (p : α → Bool)
  | rep (p : α → Bool) (lo : Nat) (hi : Option Nat)
  | seq (r s : Regex α)
  | opt (r : Regex α)
  | group (name : String) (r : Regex α)

namespace Regex

variable {α β : Type}

abbrev Groups (α : Type) := List (String × List α)

/-- The rest of a repetition of `p`, of which `lo` are wanted and `hi` allowed. -/
def repeated (p : α → Bool) (k : List α → Option β) : Nat → Option Nat → List α → Option β
  | lo, _, [] => if lo = 0 then k [] else none
  | lo, hi, x :: xs =>
    let stop := if lo = 0 then k (x :: xs) else none
    if p x ∧ hi ≠ some 0 then (repeated p k (lo - 1) (hi.map (· - 1)) xs).or stop else stop

/-- Match a prefix of the input, then go on with what is left of it. -/
def exec : Regex α → List α → Groups α → (List α → Groups α → Option β) → Option β
  | one _, [], _, _ => none
  | one p, x :: xs, g, k => if p x then k xs g else none
  | rep p lo hi, xs, g, k => repeated p (k · g) lo hi xs
  | seq r s, xs, g, k => exec r xs g fun rest g => exec s rest g k
  | opt r, xs, g, k => (exec r xs g k).or (k xs g)
  | group name r, xs, g, k =>
    exec r xs g fun rest g => k rest (g ++ [(name, xs.take (xs.length - rest.length))])

/-- `re.match`: the groups of the first match at the start of the input. -/
def matchStart (r : Regex α) (xs : List α) : Option (Groups α) := r.exec xs [] fun _ g => some g

/-- `run` is the longest run of `p` at the start of `run ++ rest`. -/
def Longest (p : α → Bool) (run rest : List α) : Prop :=
  (∀ x ∈ run, p x = true) ∧ ∀ x ∈ rest.head?, p x = false

theorem Longest.cons {p : α → Bool} {run rest : List α} {x : α} (hx : p x = true)
    (h : Longest p run rest) : Longest p (x :: run) rest :=
  ⟨List.forall_mem_cons.mpr ⟨hx, h.1⟩, h.2⟩

/-- A count within the bounds of a repetition. -/
def Within (lo : Nat) (hi : Option Nat) (n : Nat) : Prop := lo ≤ n ∧ ∀ m ∈ hi, n ≤ m

theorem within_succ {lo n : Nat} {hi : Option Nat} (h0 : hi ≠ some 0) :
    Within lo hi (n + 1) ↔ Within (lo - 1) (hi.map (· - 1)) n := by
  unfold Within
  cases hi with
  | none => simp
  | some m =>
    have hm : m ≠ 0 := fun h => h0 (congrArg some h)
    simp
    omega

theorem within_zero {lo : Nat} {hi : Option Nat} (h : lo = 0) : Within lo hi 0 :=
  ⟨Nat.le_of_eq h, fun m _ => Nat.zero_le m⟩

section Repeated

variable {p : α → Bool} {k : List α → Option β} {lo : Nat} {hi : Option Nat} {b : β}

theorem longest_eq_some {run rest : List α} (hrun : Longest p run rest)
    (hn : Within lo hi run.length) (hk : k rest = some b) :
    repeated p k lo hi (run ++ rest) = some b := by
  induction run generalizing lo hi with
  | nil =>
    obtain rfl : lo = 0 := Nat.le_zero.mp hn.1
    cases rest with
    | nil => exact hk
    | cons x xs =>
      have hx : p x = false := hrun.2 x rfl
      simp [repeated, hx, hk]
  | cons x run ih =>
    obtain ⟨hx, hall⟩ := List.forall_mem_cons.mp hrun.1
    have h0 : hi ≠ some 0 := by
      intro h
      have hle := hn.2 0 h
      simp at hle
    rw [List.cons_append, repeated, if_pos ⟨hx, h0⟩,
      ih ⟨hall, hrun.2⟩ ((within_succ h0).mp hn)]
    rfl

/-- Where the rest of the pattern refuses whatever `p` accepts, no shorter run will do. -/
theorem rep_eq_some (hk : ∀ x xs, p x = true → k (x :: xs) = none) {xs : List α} :
    repeated p k lo hi xs = some b ↔
      ∃ run rest, xs = run ++ rest ∧ Longest p run rest ∧ Within lo hi run.length ∧
        k rest = some b := by
  constructor
  · intro h
    induction xs generalizing lo hi with
    | nil =>
      rw [repeated] at h
      split at h
      · rename_i hlo
        exact ⟨[], [], rfl, ⟨by simp, by simp⟩, within_zero hlo, h⟩
      · cases h
    | cons x xs ih =>
      rw [repeated] at h
      by_cases hx : p x = true
      · simp only [hk x xs hx, ite_self, Option.or_none] at h
        split at h
        · rename_i hcond
          obtain ⟨run, rest, rfl, hrun, hn, hrest⟩ := ih h
          exact ⟨x :: run, rest, rfl, hrun.cons hx, (within_succ hcond.2).mpr hn, hrest⟩
        · cases h
      · rw [if_neg (fun hc => hx hc.1)] at h
        split at h
        · rename_i hlo
          exact ⟨[], x :: xs, rfl, ⟨by simp, by simpa using hx⟩, within_zero hlo, h⟩
        · cases h
  · rintro ⟨run, rest, rfl, hrun, hn, hrest⟩
    exact longest_eq_some hrun hn hrest

theorem longest_takeWhile (p : α → Bool) (xs : List α) :
    Longest p (xs.takeWhile p) (xs.dropWhile p) := by
  refine ⟨fun x hx => List.mem_takeWhile_imp hx, fun x hx => ?_⟩
  have hdrop := List.head?_dropWhile_not p xs
  rw [hx] at hdrop
  exact hdrop

/-- Where the rest of the pattern takes anything, the longest run will do, -/
theorem rep_of_total (hk : ∀ xs, (k xs).isSome) (xs : List α) :
    repeated p k 0 none xs = k (xs.dropWhile p) := by
  obtain ⟨b, hb⟩ := Option.isSome_iff_exists.mp (hk (xs.dropWhile p))
  have hlongest : repeated p k 0 none (xs.takeWhile p ++ xs.dropWhile p) = some b :=
    longest_eq_some (longest_takeWhile p xs) ⟨Nat.zero_le _, by simp⟩ hb
  rw [List.takeWhile_append_dropWhile] at hlongest
  rw [hlongest, hb]

/-- and it is the first that is tried. -/
theorem rep_eq_some_of_total (hk : ∀ xs, (k xs).isSome) {xs : List α} :
    repeated p k 0 none xs = some b ↔
      ∃ run rest, xs = run ++ rest ∧ Longest p run rest ∧ k rest = some b := by
  constructor
  · intro h
    rw [rep_of_total hk] at h
    exact ⟨_, _, List.takeWhile_append_dropWhile.symm, longest_takeWhile p xs, h⟩
  · rintro ⟨run, rest, rfl, hrun, hrest⟩
    exact longest_eq_some hrun ⟨Nat.zero_le _, by simp⟩ hrest

end Repeated

section Exec

variable {p : α → Bool} {k : List α → Groups α → Option β} {lo : Nat} {hi : Option Nat}
  {xs : List α} {g : Groups α} {b : β}

theorem exec_seq {r s : Regex α} :
    (seq r s).exec xs g k = r.exec xs g fun rest g => s.exec rest g k := rfl

/-! What a pattern makes of a first element that it does not want. -/

theorem exec_one_none {x : α} (hx : p x = false) :
    (one p).exec (x :: xs) g k = none := by
  simp [exec, hx]

theorem exec_rep_none {x : α} (hlo : lo ≠ 0) (hx : p x = false) :
    (rep p lo hi).exec (x :: xs) g k = none := by
  simp [exec, repeated, hx, hlo]

theorem exec_group_rep_none {name : String} {x : α} (hlo : lo ≠ 0) (hx : p x = false) :
    (group name (rep p lo hi)).exec (x :: xs) g k = none := by
  simp [exec, repeated, hx, hlo]

/-! What it makes of one that it does want. -/

theorem exec_one : (one p).exec xs g k = some b ↔
    ∃ x rest, xs = x :: rest ∧ p x = true ∧ k rest g = some b := by
  constructor
  · intro h
    cases xs with
    | nil => cases h
    | cons x xs =>
      rw [exec] at h
      split at h
      · rename_i hx
        exact ⟨x, xs, rfl, hx, h⟩
      · cases h
  · rintro ⟨x, rest, rfl, hx, h⟩
    rw [exec, if_pos hx, h]

theorem exec_rep (hk : ∀ x xs g, p x = true → k (x :: xs) g = none) :
    (rep p lo hi).exec xs g k = some b ↔
      ∃ run rest, xs = run ++ rest ∧ Longest p run rest ∧ Within lo hi run.length ∧
        k rest g = some b :=
  rep_eq_some fun x xs hx => hk x xs g hx

theorem consumed (run rest : List α) :
    (run ++ rest).take ((run ++ rest).length - rest.length) = run := by simp

theorem exec_group_rep {name : String} (hk : ∀ x xs g, p x = true → k (x :: xs) g = none) :
    (group name (rep p lo hi)).exec xs g k = some b ↔
      ∃ run rest, xs = run ++ rest ∧ Longest p run rest ∧ Within lo hi run.length ∧
        k rest (g ++ [(name, run)]) = some b := by
  refine (rep_eq_some fun x xs hx => hk x xs _ hx).trans ?_
  constructor
  · rintro ⟨run, rest, rfl, hrun, hn, hrest⟩
    dsimp only at hrest
    rw [consumed] at hrest
    exact ⟨run, rest, rfl, hrun, hn, hrest⟩
  · rintro ⟨run, rest, rfl, hrun, hn, hrest⟩
    refine ⟨run, rest, rfl, hrun, hn, ?_⟩
    dsimp only
    rw [consumed, hrest]

theorem exec_opt {r : Regex α} : (opt r).exec xs g k = some b ↔
    r.exec xs g k = some b ∨ r.exec xs g k = none ∧ k xs g = some b := by
  rw [exec, Option.or_eq_some_iff]

theorem isSome_exec_group_rep {name : String} (hk : ∀ xs g, (k xs g).isSome) :
    ((group name (rep p 0 none)).exec xs g k).isSome := by
  rw [exec, exec, rep_of_total fun xs => hk xs _]
  exact hk _ _

theorem exec_group_rep_of_total {name : String} (hk : ∀ xs g, (k xs g).isSome) :
    (group name (rep p 0 none)).exec xs g k = some b ↔
      ∃ run rest, xs = run ++ rest ∧ Longest p run rest ∧
        k rest (g ++ [(name, run)]) = some b := by
  refine (rep_eq_some_of_total fun xs => hk xs _).trans ?_
  constructor
  · rintro ⟨run, rest, rfl, hrun, hrest⟩
    rw [consumed] at hrest
    exact ⟨run, rest, rfl, hrun, hrest⟩
  · rintro ⟨run, rest, rfl, hrun, hrest⟩
    refine ⟨run, rest, rfl, hrun, ?_⟩
    rw [consumed, hrest]

end Exec

end Regex

import Mathlib.Data.List.Nodup

/-!
# Lib.Table

A table kept as a list of entries with a key each: found by scanning for the key, updated in place,
extended at the end (`put`). `lookup` reads the table as a finite map, and each operation has one
lemma that says what it does to that map. `Distinct` tables hold every key once.
-/

namespace Table

variable {α κ : Type} [DecidableEq κ] (key : α → κ)

def lookup (l : List α) (k : κ) : Option α := l.find? (key · = k)

def index? (l : List α) (k : κ) : Option Nat := l.findIdx? (key · = k)

def Distinct (l : List α) : Prop := (l.map key).Nodup

variable {key} {l : List α} {k : κ} {a : α} {i : Nat}

theorem key_of_lookup (h : lookup key l k = some a) : key a = k := by
  simpa using List.find?_some h

theorem lookup_eq_none : lookup key l k = none ↔ ∀ a ∈ l, key a ≠ k := by
  simp [lookup]

theorem index?_eq_none : index? key l k = none ↔ lookup key l k = none := by
  simp [index?, lookup]

/-- The scan stops at the entry that `lookup` finds. -/
theorem getElem?_of_index? (h : index? key l k = some i) :
    ∃ a, l[i]? = some a ∧ lookup key l k = some a := by
  obtain ⟨hi, hk, hbefore⟩ := List.findIdx?_eq_some_iff_getElem.mp h
  refine ⟨l[i], List.getElem?_eq_getElem hi, ?_⟩
  rw [lookup, List.find?_eq_some_iff_getElem]
  exact ⟨hk, i, hi, rfl, fun j hj => by simpa using hbefore j hj⟩

/-! ## Putting an entry -/

/-- The entry takes the place of the first one with its key, or goes to the end. -/
def put (key : α → κ) (a : α) : List α → List α
  | [] => [a]
  | b :: l => if key b = key a then a :: l else b :: put key a l

theorem set_eq_put (h : index? key l (key a) = some i) : l.set i a = put key a l := by
  induction l generalizing i with
  | nil => cases h
  | cons b l ih =>
    rw [index?, List.findIdx?_cons] at h
    by_cases hb : key b = key a
    · obtain rfl : 0 = i := by simpa [hb] using h
      simp [put, hb]
    · obtain ⟨j, hj, rfl⟩ : ∃ j, index? key l (key a) = some j ∧ j + 1 = i := by
        simpa [hb, index?] using h
      simp [put, hb, ih hj]

theorem append_eq_put (h : lookup key l (key a) = none) : l ++ [a] = put key a l := by
  induction l with
  | nil => rfl
  | cons b l ih =>
    rw [lookup_eq_none, List.forall_mem_cons] at h
    rw [List.cons_append, ih (lookup_eq_none.mpr h.2), put, if_neg h.1]

theorem lookup_put (l : List α) (a : α) (k : κ) :
    lookup key (put key a l) k = if key a = k then some a else lookup key l k := by
  induction l with
  | nil => by_cases hk : key a = k <;> simp [put, lookup, hk]
  | cons b l ih =>
    simp only [put, lookup] at ih ⊢
    by_cases hb : key b = key a
    · by_cases hk : key a = k <;> simp [hb, hk]
    · rw [if_neg hb, List.find?_cons, List.find?_cons, ih]
      by_cases hk : key b = k
      · simp [hk, show key a ≠ k from fun h => hb (hk.trans h.symm)]
      · simp [hk]

/-- The keys keep their places; a new one comes last. -/
theorem keys_put (l : List α) (a : α) :
    (put key a l).map key =
      l.map key ++ if lookup key l (key a) = none then [key a] else [] := by
  induction l with
  | nil => rfl
  | cons b l ih =>
    simp only [put, lookup, List.find?_cons] at ih ⊢
    by_cases hb : key b = key a
    · simp [hb]
    · simp [hb, ih]

theorem distinct_put (hd : Distinct key l) (a : α) : Distinct key (put key a l) := by
  rw [Distinct, keys_put]
  split
  · rename_i hnone
    rw [List.nodup_append]
    refine ⟨hd, List.nodup_singleton _, fun x hx y hy => ?_⟩
    obtain ⟨b, hb, rfl⟩ := List.mem_map.mp hx
    obtain rfl : y = key a := by simpa using hy
    exact lookup_eq_none.mp hnone b hb
  · rwa [List.append_nil]

theorem mem_put {b : α} (h : b ∈ put key a l) : b = a ∨ b ∈ l := by
  induction l with
  | nil => exact .inl (List.mem_singleton.mp h)
  | cons c l ih =>
    unfold put at h
    split at h <;> cases List.mem_cons.mp h with
    | inl hb => simp [hb]
    | inr hb =>
      first
      | exact .inr (List.mem_cons_of_mem _ hb)
      | exact (ih hb).imp_right (List.mem_cons_of_mem _)

/-- How the number of entries with a property changes. -/
theorem countP_put (P : α → Bool) (l : List α) (a : α) :
    (put key a l).countP P + (lookup key l (key a)).toList.countP P =
      l.countP P + if P a then 1 else 0 := by
  induction l with
  | nil => simp [put, lookup]
  | cons b l ih =>
    simp only [put, lookup, List.find?_cons] at ih ⊢
    by_cases hb : key b = key a
    · simp [hb, List.countP_cons]; omega
    · simp only [hb, if_false, decide_false, List.countP_cons]
      omega

/-- Rewriting every entry without touching its key. -/
theorem lookup_map {f : α → α} (hf : ∀ a, key (f a) = key a) (l : List α) (k : κ) :
    lookup key (l.map f) k = (lookup key l k).map f := by
  rw [lookup, List.find?_map, lookup]
  congr 2
  funext a
  simp [hf]

omit [DecidableEq κ] in
theorem distinct_map {f : α → α} (hf : ∀ a, key (f a) = key a) (hd : Distinct key l) :
    Distinct key (l.map f) := by
  have hkeys : (l.map f).map key = l.map key := by
    rw [List.map_map]; exact List.map_congr_left fun a _ => hf a
  rw [Distinct, hkeys]
  exact hd

/-- In a distinct table, the entries of a key are the one that `lookup` finds. -/
theorem filter_key (hd : Distinct key l) (k : κ) :
    l.filter (key · = k) = (lookup key l k).toList := by
  induction l with
  | nil => rfl
  | cons b l ih =>
    rw [Distinct, List.map_cons, List.nodup_cons] at hd
    simp only [lookup, List.find?_cons, List.filter_cons] at ih ⊢
    by_cases hbk : key b = k
    · have hnone : l.filter (key · = k) = [] := by
        rw [List.filter_eq_nil_iff]
        intro c hc hck
        exact hd.1 (List.mem_map.mpr ⟨c, hc, by simpa [hbk] using hck⟩)
      simp [hbk, hnone]
    · simpa [hbk] using ih hd.2

end Table

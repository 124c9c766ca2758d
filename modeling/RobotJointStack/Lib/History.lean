import Mathlib.Data.List.Induction

/-!
# Lib.History

A run's list of events, read backwards: what came last, and what has happened since. Each notion
has one lemma for an event appended to the list, so a run and its history are compared by
induction from the end.
-/

namespace History

variable {α β : Type}

/-- The events after the last one that `mark` selects. -/
def since (mark : α → Bool) (l : List α) : List α := (l.reverse.takeWhile (!mark ·)).reverse

theorem since_snoc_mark {mark : α → Bool} (l : List α) {a : α} (h : mark a = true) :
    since mark (l ++ [a]) = [] := by
  simp [since, h]

theorem since_snoc_other {mark : α → Bool} (l : List α) {a : α} (h : mark a = false) :
    since mark (l ++ [a]) = since mark l ++ [a] := by
  simp [since, h]

/-- The value that `f` reads off the last event it reads anything off. -/
def last? (f : α → Option β) (l : List α) : Option β := l.reverse.findSome? f

@[simp] theorem last?_nil (f : α → Option β) : last? f [] = none := rfl

theorem last?_snoc (f : α → Option β) (l : List α) (a : α) :
    last? f (l ++ [a]) = (f a).or (last? f l) := by
  simp only [last?, List.reverse_append, List.reverse_singleton, List.singleton_append,
    List.findSome?_cons]
  cases f a <;> rfl

/-- An event that satisfies `P`, given the events before it, has occurred since the last one that
`mark` selects. -/
def OccursSince (mark : α → Bool) (P : List α → α → Prop) (l : List α) : Prop :=
  ∃ before a after, l = before ++ a :: after ∧ (∀ b ∈ a :: after, mark b = false) ∧ P before a

theorem not_occursSince_nil (mark : α → Bool) (P : List α → α → Prop) :
    ¬OccursSince mark P [] := by
  rintro ⟨before, a, after, h, -⟩
  simp at h

/-- Where the last element of a list lies when the list is cut at `b`. -/
theorem snoc_eq_append_cons {l before after : List α} {a b : α}
    (h : l ++ [a] = before ++ b :: after) :
    (after = [] ∧ l = before ∧ a = b) ∨
      ∃ after', after = after' ++ [a] ∧ l = before ++ b :: after' := by
  rcases List.eq_nil_or_concat after with rfl | ⟨after', c, rfl⟩
  · exact .inl ⟨rfl, List.append_inj' h rfl |>.imp_right fun h => by simpa using h⟩
  · right
    rw [List.concat_eq_append] at h ⊢
    have h' : l ++ [a] = (before ++ b :: after') ++ [c] := by simpa using h
    obtain ⟨rfl, hc⟩ := List.append_inj' h' rfl
    exact ⟨after', by simpa using hc.symm, rfl⟩

/-- Every event satisfies `P`, given the events before it. -/
def AtEach (P : List α → α → Prop) (l : List α) : Prop :=
  ∀ before a after, l = before ++ a :: after → P before a

theorem atEach_nil (P : List α → α → Prop) : AtEach P [] := by
  intro before a after h
  simp at h

theorem atEach_snoc {P : List α → α → Prop} {l : List α} {a : α} :
    AtEach P (l ++ [a]) ↔ AtEach P l ∧ P l a := by
  constructor
  · intro h
    refine ⟨fun before b after hl => h before b (after ++ [a]) (by simp [hl]), h l a [] rfl⟩
  · rintro ⟨h, ha⟩ before b after hl
    obtain ⟨-, rfl, rfl⟩ | ⟨after', -, rfl⟩ := snoc_eq_append_cons hl
    · exact ha
    · exact h before b after' rfl

theorem atEach_cons {P : List α → α → Prop} {l : List α} {a : α} :
    AtEach P (a :: l) ↔ P [] a ∧ AtEach (fun before b => P (a :: before) b) l := by
  constructor
  · intro h
    exact ⟨h [] a l rfl, fun before b after hl => h (a :: before) b after (by rw [hl]; rfl)⟩
  · rintro ⟨ha, h⟩ before b after hl
    cases before with
    | nil =>
      cases hl
      exact ha
    | cons c before =>
      cases hl
      exact h before b after rfl

theorem not_occursSince_snoc_mark {mark : α → Bool} (P : List α → α → Prop) (l : List α) {a : α}
    (h : mark a = true) : ¬OccursSince mark P (l ++ [a]) := by
  rintro ⟨before, b, after, hl, hmark, -⟩
  have hlast : a ∈ b :: after := by
    obtain ⟨-, -, rfl⟩ | ⟨after', rfl, -⟩ := snoc_eq_append_cons hl <;> simp
  rw [hmark a hlast] at h
  cases h

theorem occursSince_snoc_other {mark : α → Bool} {P : List α → α → Prop} {l : List α} {a : α}
    (h : mark a = false) :
    OccursSince mark P (l ++ [a]) ↔ OccursSince mark P l ∨ P l a := by
  constructor
  · rintro ⟨before, b, after, hl, hmark, hp⟩
    obtain ⟨-, rfl, rfl⟩ | ⟨after', rfl, rfl⟩ := snoc_eq_append_cons hl
    · exact .inr hp
    · exact .inl ⟨before, b, after', rfl, fun x hx => hmark x (List.mem_append_left [a] hx), hp⟩
  · rintro (⟨before, b, after, rfl, hmark, hp⟩ | hp)
    · refine ⟨before, b, after ++ [a], by simp, fun x hx => ?_, hp⟩
      rw [← List.cons_append, List.mem_append] at hx
      cases hx with
      | inl hx => exact hmark x hx
      | inr hx =>
        rw [List.mem_singleton.mp hx]; exact h
    · exact ⟨l, a, [], rfl, fun x hx => by rw [List.mem_singleton.mp hx]; exact h, hp⟩

/-! ## Projections -/

/-- Two runs with one projection reach the same projections, -/
theorem exists_prefix_filterMap {f : α → Option β} {l l' before : List α}
    (h : l.filterMap f = l'.filterMap f) (hb : before <+: l) :
    ∃ before', before' <+: l' ∧ before.filterMap f = before'.filterMap f := by
  obtain ⟨after, rfl⟩ := hb
  rw [List.filterMap_append, eq_comm, List.filterMap_eq_append_iff] at h
  obtain ⟨before', after', rfl, hbefore, -⟩ := h
  exact ⟨before', List.prefix_append _ _, hbefore.symm⟩

/-- and where they have got equally far, they have seen the same. -/
theorem prefix_filterMap_eq {f : α → Option β} {l l' before before' : List α}
    (h : l.filterMap f = l'.filterMap f) (hb : before <+: l) (hb' : before' <+: l')
    (hlen : (before.filterMap f).length = (before'.filterMap f).length) :
    before.filterMap f = before'.filterMap f := by
  have hp : before.filterMap f <+: l.filterMap f := hb.filterMap f
  have hp' : before'.filterMap f <+: l.filterMap f := h ▸ hb'.filterMap f
  exact (List.prefix_of_prefix_length_le hp hp' (Nat.le_of_eq hlen)).eq_of_length hlen

end History

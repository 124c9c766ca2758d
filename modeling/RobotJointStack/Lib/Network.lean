import Mathlib.Data.List.Induction
import Mathlib.Logic.Function.Basic

/-!
# Lib.Network

Parties that share a medium. A party has events of its own; an event may send messages, and it may
take one in. What is taken in, another party has sent: the medium may lose messages, delay them,
hand them on out of order and more than once, and deliver each in any form that `arrives` allows,
but it makes none up.

* `Sound`, `Sound.run`: assume-guarantee. What every party keeps while the others keep to their
  guarantee, all of them keep.
* `Simulates`, `Simulates.run`: parties with more detail make a network with more detail.
-/

/-- What an event does to a party, what it sends and what it takes in. -/
structure Party (σ ε τ ρ : Type) where
  act : σ → ε → σ
  sends : σ → ε → List τ
  takes : ε → Option ρ
  arrives : τ → ρ → Prop

/-- The states of the parties, and all messages so far with their senders, the first one first. -/
structure Network (ι σ τ : Type) where
  node : ι → σ
  sent : List (ι × τ)

namespace Network

section Run

variable {ι σ ε τ ρ : Type} [DecidableEq ι] (P : Party σ ε τ ρ)

def start (init : ι → σ) : Network ι σ τ := ⟨init, []⟩

def act (net : Network ι σ τ) (ev : ι × ε) : Network ι σ τ where
  node := Function.update net.node ev.1 (P.act (net.node ev.1) ev.2)
  sent := net.sent ++ (P.sends (net.node ev.1) ev.2).map (ev.1, ·)

def run (net : Network ι σ τ) (events : List (ι × ε)) : Network ι σ τ := events.foldl (act P) net

/-- A party other than `i` has sent what arrives as `r`. -/
def Offers (sent : List (ι × τ)) (i : ι) (r : ρ) : Prop :=
  ∃ j t, (j, t) ∈ sent ∧ j ≠ i ∧ P.arrives t r

/-- Whatever the events take in is offered at the time. -/
def IsRun (net : Network ι σ τ) : List (ι × ε) → Prop
  | [] => True
  | ev :: events => (∀ r ∈ P.takes ev.2, Offers P net.sent ev.1 r) ∧ IsRun (net.act P ev) events

variable {P}

theorem run_append (net : Network ι σ τ) (as bs : List (ι × ε)) :
    net.run P (as ++ bs) = (net.run P as).run P bs := List.foldl_append

theorem isRun_append (net : Network ι σ τ) (as bs : List (ι × ε)) :
    net.IsRun P (as ++ bs) ↔ net.IsRun P as ∧ (net.run P as).IsRun P bs := by
  induction as generalizing net with
  | nil => simp [IsRun, run]
  | cons ev as ih => simp [IsRun, run, ih, and_assoc]

omit [DecidableEq ι] in
theorem Offers.mono {sent sent' : List (ι × τ)} {i : ι} {r : ρ} (h : Offers P sent i r)
    (hsub : sent ⊆ sent') : Offers P sent' i r := by
  obtain ⟨j, t, hmem, hne, harr⟩ := h
  exact ⟨j, t, hsub hmem, hne, harr⟩

end Run

/-! ## One party -/

section Own

variable {ι α : Type} [DecidableEq ι]

/-- What a party has in a list, in order: its messages or its events. -/
def own (i : ι) (l : List (ι × α)) : List α :=
  l.filterMap fun m => if m.1 = i then some m.2 else none

theorem mem_own {i : ι} {l : List (ι × α)} {a : α} : a ∈ own i l ↔ (i, a) ∈ l := by
  simp only [own, List.mem_filterMap]
  constructor
  · rintro ⟨⟨j, b⟩, hmem, hif⟩
    split at hif
    · rename_i hj
      cases hif
      exact (show j = i from hj) ▸ hmem
    · cases hif
  · exact fun h => ⟨(i, a), h, if_pos rfl⟩

theorem own_append_self (i : ι) (l : List (ι × α)) (as : List α) :
    own i (l ++ as.map (i, ·)) = own i l ++ as := by
  unfold own
  rw [List.filterMap_append, List.filterMap_map]
  congr 1
  show as.filterMap (fun a => if i = i then some a else none) = as
  simp

theorem own_append_other {i : ι} {more : List (ι × α)} (l : List (ι × α))
    (h : ∀ m ∈ more, m.1 ≠ i) : own i (l ++ more) = own i l := by
  rw [own, List.filterMap_append, List.filterMap_eq_nil_iff.mpr fun m hm => if_neg (h m hm),
    List.append_nil, own]

theorem own_concat_self (i : ι) (l : List (ι × α)) (a : α) :
    own i (l ++ [(i, a)]) = own i l ++ [a] := own_append_self i l [a]

theorem own_concat_other {i j : ι} (hij : i ≠ j) (l : List (ι × α)) (a : α) :
    own j (l ++ [(i, a)]) = own j l :=
  own_append_other l fun _ hm => List.mem_singleton.mp hm ▸ hij

/-- A party goes through its own events. -/
theorem node_run {σ ε τ ρ : Type} (P : Party σ ε τ ρ) (net : Network ι σ τ)
    (events : List (ι × ε)) (i : ι) :
    (net.run P events).node i = (own i events).foldl P.act (net.node i) := by
  induction events generalizing net with
  | nil => rfl
  | cons ev events ih =>
    have hstep := ih (net.act P ev)
    rw [run, List.foldl_cons, ← run, hstep, Network.act]
    by_cases hi : ev.1 = i
    · subst hi
      simp [own]
    · simp [own, hi, Function.update_of_ne (Ne.symm hi)]

end Own

/-! ## Assume-guarantee -/

section Sound

variable {ι σ ε τ ρ : Type} [DecidableEq ι]

/-- An invariant of a party in view of the messages so far. Its own messages meet `G`, others do not
break it by what they send, and it keeps it as long as all messages meet `G`. -/
structure Sound (P : Party σ ε τ ρ) (Inv : List (ι × τ) → ι → σ → Prop) (G : ι → τ → Prop) :
    Prop where
  guarantee : ∀ {sent i s}, Inv sent i s → ∀ t, (i, t) ∈ sent → G i t
  stable : ∀ {sent more i s}, Inv sent i s → (∀ m ∈ more, m.1 ≠ i) → Inv (sent ++ more) i s
  step : ∀ {sent i s e}, Inv sent i s → (∀ j t, (j, t) ∈ sent → G j t) →
    (∀ r ∈ P.takes e, Offers P sent i r) →
    Inv (sent ++ (P.sends s e).map (i, ·)) i (P.act s e)

variable {P : Party σ ε τ ρ} {Inv : List (ι × τ) → ι → σ → Prop} {G : ι → τ → Prop}
  {net : Network ι σ τ}

/-- All parties keep their invariant. -/
def Holds (Inv : List (ι × τ) → ι → σ → Prop) (net : Network ι σ τ) : Prop :=
  ∀ i, Inv net.sent i (net.node i)

omit [DecidableEq ι] in
theorem Sound.guarantees (h : Sound P Inv G) (hnet : net.Holds Inv) {j : ι} {t : τ}
    (hmem : (j, t) ∈ net.sent) : G j t := h.guarantee (hnet j) t hmem

theorem Sound.act (h : Sound P Inv G) (hnet : net.Holds Inv) {ev : ι × ε}
    (hev : ∀ r ∈ P.takes ev.2, Offers P net.sent ev.1 r) : (net.act P ev).Holds Inv := by
  obtain ⟨i, e⟩ := ev
  intro j
  by_cases hj : j = i
  · subst hj
    simp only [Network.act, Function.update_self]
    exact h.step (hnet j) (fun _ _ hmem => h.guarantees hnet hmem) hev
  · simp only [Network.act, Function.update_of_ne hj]
    refine h.stable (hnet j) fun m hm => ?_
    obtain ⟨t, -, rfl⟩ := List.mem_map.mp hm
    exact Ne.symm hj

theorem Sound.run (h : Sound P Inv G) (hnet : net.Holds Inv) {events : List (ι × ε)}
    (hrun : net.IsRun P events) : (net.run P events).Holds Inv := by
  induction events generalizing net with
  | nil => exact hnet
  | cons ev events ih => exact ih (h.act hnet hrun.1) hrun.2

end Sound

/-! ## Simulation -/

section Simulates

variable {ι σ ε τ ρ σ' ε' ρ' : Type}

/-- What a party sends in a row of its events. -/
def sendsAll (P : Party σ ε τ ρ) (s : σ) : List ε → List τ
  | [] => []
  | e :: es => P.sends s e ++ sendsAll P (P.act s e) es

variable [DecidableEq ι]

/-- A row of events of one party. -/
theorem run_row (P : Party σ ε τ ρ) (net : Network ι σ τ) (i : ι) (es : List ε) :
    net.run P (es.map (i, ·)) =
      ⟨Function.update net.node i (es.foldl P.act (net.node i)),
        net.sent ++ (sendsAll P (net.node i) es).map (i, ·)⟩ := by
  induction es generalizing net with
  | nil => simp [run, sendsAll]
  | cons e es ih =>
    have hrest := ih (net.act P (i, e))
    simp only [Network.act, Function.update_self, Function.update_idem] at hrest
    rw [List.map_cons, run, List.foldl_cons, ← run, Network.act, hrest, sendsAll, List.map_append,
      List.append_assoc, List.foldl_cons]

theorem isRun_row {P : Party σ ε τ ρ} {net : Network ι σ τ} {i : ι} {es : List ε}
    (h : ∀ e ∈ es, ∀ r ∈ P.takes e, Offers P net.sent i r) : net.IsRun P (es.map (i, ·)) := by
  induction es generalizing net with
  | nil => trivial
  | cons e es ih =>
    rw [List.forall_mem_cons] at h
    exact ⟨h.1, ih fun e he r hr => (h.2 e he r hr).mono (List.subset_append_left _ _)⟩

/-- The party `C` is the party `P` with more detail: its events are rows of events of `P`, as long
as it keeps an invariant that knows what messages there are. -/
structure Simulates (C : Party σ' ε' τ ρ') (P : Party σ ε τ ρ) (abs : σ' → σ)
    (events : σ' → ε' → List ε) (Inv : List (ι × τ) → ι → σ' → Prop) : Prop where
  stable : ∀ {sent more i s}, Inv sent i s → Inv (sent ++ more) i s
  step : ∀ {sent i s e}, Inv sent i s → (∀ r ∈ C.takes e, Offers C sent i r) →
    Inv sent i (C.act s e)
  act : ∀ {sent i s e}, Inv sent i s → abs (C.act s e) = (events s e).foldl P.act (abs s)
  sends : ∀ {sent i s e}, Inv sent i s → C.sends s e = sendsAll P (abs s) (events s e)
  offers : ∀ {sent i s e}, Inv sent i s → ∀ a ∈ events s e, ∀ r ∈ P.takes a, Offers P sent i r

variable {C : Party σ' ε' τ ρ'} {P : Party σ ε τ ρ} {abs : σ' → σ}
  {events : σ' → ε' → List ε} {Inv : List (ι × τ) → ι → σ' → Prop} {net : Network ι σ' τ}

/-- The network of which only the abstract states are seen. -/
def abstract (abs : σ' → σ) (net : Network ι σ' τ) : Network ι σ τ := ⟨abs ∘ net.node, net.sent⟩

theorem Simulates.net_act (h : Simulates C P abs events Inv) (hnet : net.Holds Inv) {ev : ι × ε'}
    (hev : ∀ r ∈ C.takes ev.2, Offers C net.sent ev.1 r) :
    (net.act C ev).Holds Inv ∧
      (net.abstract abs).IsRun P ((events (net.node ev.1) ev.2).map (ev.1, ·)) ∧
      (net.abstract abs).run P ((events (net.node ev.1) ev.2).map (ev.1, ·)) =
        (net.act C ev).abstract abs := by
  obtain ⟨i, e⟩ := ev
  refine ⟨fun j => ?_, isRun_row (h.offers (hnet i)), ?_⟩
  · by_cases hj : j = i
    · subst hj
      simp only [Network.act, Function.update_self]
      exact h.stable (h.step (hnet j) hev)
    · simp only [Network.act, Function.update_of_ne hj]
      exact h.stable (hnet j)
  · rw [run_row]
    simp only [abstract, Network.act, Function.comp_apply, h.sends (hnet i), ← h.act (hnet i)]
    congr 1
    funext j
    by_cases hj : j = i
    · subst hj; simp
    · simp [Function.update_of_ne hj]

/-- Every run of a network of detailed parties is a run of the abstract ones, with the same
messages. -/
theorem Simulates.run (h : Simulates C P abs events Inv) (hnet : net.Holds Inv)
    {es : List (ι × ε')} (hrun : net.IsRun C es) :
    ∃ as, (net.abstract abs).IsRun P as ∧
      (net.abstract abs).run P as = (net.run C es).abstract abs := by
  induction es generalizing net with
  | nil => exact ⟨[], trivial, rfl⟩
  | cons ev es ih =>
    obtain ⟨hnet', hrow, heq⟩ := h.net_act hnet hrun.1
    obtain ⟨as, has, hend⟩ := ih hnet' hrun.2
    refine ⟨(events (net.node ev.1) ev.2).map (ev.1, ·) ++ as, ?_, ?_⟩
    · rw [isRun_append, heq]
      exact ⟨hrow, has⟩
    · rw [run_append, heq, hend]
      rfl

end Simulates

end Network

import Mathlib.Data.List.Basic

/-!
# Lib.Fifo

A bounded first-in first-out queue. A send to a full queue fails and changes nothing. The queue may
also lose entries, so that results hold over lossy ones too.
-/

structure Fifo (α : Type) where
  depth : Nat
  items : List α
  bounded : items.length ≤ depth

namespace Fifo

variable {α : Type}

def create (depth : Nat) : Fifo α := ⟨depth, [], Nat.zero_le depth⟩

def send (q : Fifo α) (x : α) : Bool × Fifo α :=
  if h : q.items.length < q.depth then
    (true, ⟨q.depth, q.items ++ [x], by rw [List.length_append]; exact h⟩)
  else (false, q)

def receive (q : Fifo α) : Option (α × Fifo α) :=
  match h : q.items with
  | [] => none
  | x :: items =>
    some (x, ⟨q.depth, items, by
      have := q.bounded
      rw [h, List.length_cons] at this
      omega⟩)

/-- The queue without its entry at position `i`. -/
def lose (q : Fifo α) (i : Nat) : Fifo α :=
  ⟨q.depth, q.items.eraseIdx i, Nat.le_trans (List.length_eraseIdx_le q.items i) q.bounded⟩

variable {q q' : Fifo α} {x y : α}

/-- What does not fit is cut off. -/
theorem items_send (q : Fifo α) (x : α) : (q.send x).2.items = (q.items ++ [x]).take q.depth := by
  have hb := q.bounded
  unfold send
  split
  · rename_i hroom
    exact (List.take_of_length_le (by rw [List.length_append]; exact hroom)).symm
  · rename_i hfull
    have hlen : q.depth = q.items.length := by omega
    rw [hlen, List.take_left]

theorem send_of_room (h : q.items.length < q.depth) (x : α) :
    (q.send x).1 = true ∧ (q.send x).2.items = q.items ++ [x] := by
  unfold send; rw [dif_pos h]; exact ⟨rfl, rfl⟩

theorem send_of_full (h : ¬q.items.length < q.depth) (x : α) : q.send x = (false, q) := by
  unfold send; rw [dif_neg h]

/-- After a send something waits, what is sent or what was there. -/
theorem items_send_ne_nil (h : 0 < q.depth) (x : α) : (q.send x).2.items ≠ [] := by
  rw [items_send, ne_eq, List.take_eq_nil_iff]
  simp [Nat.ne_of_gt h]

@[simp] theorem depth_send (q : Fifo α) (x : α) : (q.send x).2.depth = q.depth := by
  unfold send; split <;> rfl

/-- Of a row of sends, the first fill the queue. -/
theorem items_sends (q : Fifo α) (xs : List α) :
    (xs.foldl (fun q x => (q.send x).2) q).items = (q.items ++ xs).take q.depth ∧
      (xs.foldl (fun q x => (q.send x).2) q).depth = q.depth := by
  induction xs generalizing q with
  | nil =>
    rw [List.append_nil, List.take_of_length_le q.bounded]
    exact ⟨rfl, rfl⟩
  | cons x xs ih =>
    obtain ⟨hitems, hdepth⟩ := ih (q.send x).2
    rw [depth_send] at hitems hdepth
    refine ⟨?_, hdepth⟩
    rw [List.foldl_cons, hitems, items_send, List.append_cons q.items x xs]
    generalize q.items ++ [x] = l
    rw [List.take_append, List.take_append, List.take_take, List.length_take, Nat.min_self]
    congr 2
    omega

theorem receive_eq_none : q.receive = none ↔ q.items = [] := by
  unfold receive
  split
  · rename_i hnil; exact iff_of_true rfl hnil
  · rename_i x items hcons
    exact iff_of_false nofun fun hnil => by rw [hnil] at hcons; cases hcons

theorem items_of_receive (h : q.receive = some (x, q')) : q.items = x :: q'.items := by
  unfold receive at h
  split at h
  · cases h
  · rename_i y items hitems
    cases h
    exact hitems

theorem depth_of_receive (h : q.receive = some (x, q')) : q'.depth = q.depth := by
  unfold receive at h
  split at h <;> cases h
  rfl

theorem mem_of_mem_send (h : y ∈ (q.send x).2.items) : y ∈ q.items ∨ y = x := by
  unfold send at h
  split at h
  · simpa using h
  · exact .inl h

theorem mem_of_receive (h : q.receive = some (x, q')) :
    x ∈ q.items ∧ ∀ y ∈ q'.items, y ∈ q.items := by
  unfold receive at h
  split at h
  · cases h
  · rename_i y items hitems
    cases h
    constructor
    · rw [hitems]; exact List.mem_cons_self
    · intro y (hy : y ∈ items)
      rw [hitems]; exact List.mem_cons_of_mem x hy

theorem mem_of_mem_lose {i : Nat} (h : y ∈ (q.lose i).items) : y ∈ q.items :=
  List.mem_of_mem_eraseIdx h

end Fifo

import Mathlib.Data.List.Forall2
import Mathlib.Data.List.Induction
import RobotJointStack.Board.Fdcan
import RobotJointStack.Lib.Fifo

/-!
# Board.Reception

How a frame gets from the controller to `can_rx_task`: through the three elements of receive FIFO 0,
`HAL_FDCAN_RxFifo0Callback`, which empties it (`hal_can_fdcan.c`), `can_rx_isr`, and the queue of 32
frames that the task reads (`app.c`). The controller loses what does not fit the FIFO; what does not
fit the queue is counted.

The controller may put in a message between any two turns of the callback's loop, and the task may
read at any time. The callback's frame is on the stack and keeps what it held.

* `conserved_act`: where the messages are, after each event.
* `conserves`: so none is invented, doubled, reordered or dropped without being counted.
-/

namespace Rjs

def rxFifoDepth : Nat := 3

def rxQueueDepth : Nat := 32

/-- The receive path. The queue does not exist until `app_start` has created it. While the callback
runs, `draining` is the payload buffer of its frame. -/
structure Reception where
  fifo : Fifo RxMessage
  draining : Option Payload
  rxQueue : Option (Fifo CanFrame)
  rxOverrun : UInt32
  rxDropped : UInt32
  rxFrames : UInt32

inductive RxEvent where
  | arrive (m : RxMessage)
  | create
  | callback (messageLost newMessage : Bool) (stack : Payload)
  | turn (ok : Bool)
  | receive

namespace Reception

def start : Reception where
  fifo := Fifo.create rxFifoDepth
  draining := none
  rxQueue := none
  rxOverrun := 0
  rxDropped := 0
  rxFrames := 0

/-- `can_rx_isr`. -/
def canRxIsr (r : Reception) (f : CanFrame) : Reception :=
  match r.rxQueue with
  | none => { r with rxDropped := r.rxDropped + 1 }
  | some q =>
    if (q.send f).1 then { r with rxQueue := some (q.send f).2 }
    else { r with rxDropped := r.rxDropped + 1 }

/-- `HAL_FDCAN_RxFifo0Callback` up to its loop. -/
def callback (r : Reception) (messageLost newMessage : Bool) (stack : Payload) : Reception :=
  let r := if messageLost then { r with rxOverrun := r.rxOverrun + 1 } else r
  if newMessage then { r with draining := some stack } else r

/-- One turn of its loop, with the result of `HAL_FDCAN_GetRxMessage`. -/
def turn (r : Reception) (buf : Payload) (ok : Bool) : Reception :=
  match r.fifo.receive with
  | none => { r with draining := none }
  | some (m, fifo) =>
    if ok then
      let f := rxFrame m buf
      { r with fifo := fifo, draining := some f.data }.canRxIsr f
    else { r with draining := none }

/-- `xQueueReceive` in `can_rx_task`. -/
def receive (r : Reception) : Option CanFrame × Reception :=
  match r.rxQueue.bind Fifo.receive with
  | some (f, q) => (some f, { r with rxQueue := some q, rxFrames := r.rxFrames + 1 })
  | none => (none, r)

def act (r : Reception) : RxEvent → Reception
  | .arrive m => { r with fifo := (r.fifo.send m).2 }
  | .create => if r.rxQueue.isSome then r else { r with rxQueue := some (Fifo.create rxQueueDepth) }
  | .callback messageLost newMessage stack =>
    if r.draining.isSome then r else r.callback messageLost newMessage stack
  | .turn ok =>
    match r.draining with
    | some buf => r.turn buf ok
    | none => r
  | .receive => r.receive.2

def run (r : Reception) (events : List RxEvent) : Reception := events.foldl act r

/-- The frames that wait in the queue. -/
def waiting (r : Reception) : List CanFrame := (r.rxQueue.map Fifo.items).getD []

/-! ## What has become of the messages -/

/-- The messages that have come from the bus. -/
def arrived (events : List RxEvent) : List RxMessage :=
  events.filterMap fun
    | .arrive m => some m
    | _ => none

/-- The frame that an event hands to `can_rx_task`. -/
def handled? (r : Reception) : RxEvent → Option CanFrame
  | .receive => r.receive.1
  | _ => none

/-- The frames that `can_rx_task` has read. -/
def handled (r : Reception) : List RxEvent → List CanFrame
  | [] => []
  | ev :: events => (r.handled? ev).toList ++ handled (r.act ev) events

/-- Whether an event is a message that does not fit the controller's FIFO, as a number. -/
def overflow (r : Reception) : RxEvent → Nat
  | .arrive m => if (r.fifo.send m).1 then 0 else 1
  | _ => 0

/-- How many messages the controller has lost. -/
def overflows (r : Reception) : List RxEvent → Nat
  | [] => 0
  | ev :: events => r.overflow ev + overflows (r.act ev) events

theorem arrived_snoc (events : List RxEvent) (ev : RxEvent) :
    arrived (events ++ [ev]) = arrived events ++ arrived [ev] := List.filterMap_append

theorem handled_snoc (r : Reception) (events : List RxEvent) (ev : RxEvent) :
    r.handled (events ++ [ev]) = r.handled events ++ ((r.run events).handled? ev).toList := by
  induction events generalizing r with
  | nil => simp [handled, run]
  | cons first events ih => simp [handled, run, ih]

theorem overflows_snoc (r : Reception) (events : List RxEvent) (ev : RxEvent) :
    r.overflows (events ++ [ev]) = r.overflows events + (r.run events).overflow ev := by
  induction events generalizing r with
  | nil => simp [overflows, run]
  | cons first events ih => simp [overflows, run, ih, Nat.add_assoc]

theorem run_snoc (r : Reception) (events : List RxEvent) (ev : RxEvent) :
    r.run (events ++ [ev]) = (r.run events).act ev := List.foldl_concat ..

/-- A frame as the callback makes it of a message. -/
def Carries (m : RxMessage) (f : CanFrame) : Prop := ∃ buf, f = rxFrame m buf

/-- Of the messages that have come, some lie in the queue or have been read from it, in order, and
those in the controller's FIFO follow; the others are counted. -/
structure Conserved (r : Reception) (came : List RxMessage) (read : List CanFrame)
    (passed : List RxMessage) (lost dropped : Nat) : Prop where
  order : (passed ++ r.fifo.items).Sublist came
  frames : List.Forall₂ Carries passed (read ++ r.waiting)
  count : came.length = passed.length + r.fifo.items.length + lost + dropped
  rxDropped : r.rxDropped = UInt32.ofNat dropped
  rxFrames : r.rxFrames = UInt32.ofNat read.length

/-- The callback of the application puts the frame into the queue or counts it. -/
theorem canRxIsr_cases (r : Reception) (f : CanFrame) :
    (∃ q, r.canRxIsr f = { r with rxQueue := some q } ∧ q.items = r.waiting ++ [f]) ∨
      r.canRxIsr f = { r with rxDropped := r.rxDropped + 1 } := by
  unfold canRxIsr waiting
  cases hq : r.rxQueue with
  | none => exact .inr rfl
  | some q =>
    by_cases hroom : q.items.length < q.depth
    · obtain ⟨hsent, hitems⟩ := Fifo.send_of_room hroom f
      exact .inl ⟨(q.send f).2, if_pos hsent, hitems⟩
    · exact .inr (by simp [Fifo.send_of_full hroom])

section Conserved

variable {r : Reception} {came : List RxMessage} {read : List CanFrame} {passed : List RxMessage}
  {lost dropped : Nat}

theorem conserved_start : Conserved start [] [] [] 0 0 := ⟨.slnil, .nil, rfl, rfl, rfl⟩

theorem conserved_arrive (h : Conserved r came read passed lost dropped) (m : RxMessage) :
    Conserved (r.act (.arrive m)) (came ++ [m]) read passed (lost + r.overflow (.arrive m))
      dropped := by
  have hcount := h.count
  by_cases hroom : r.fifo.items.length < r.fifo.depth
  · obtain ⟨hsent, hitems⟩ := Fifo.send_of_room hroom m
    refine ⟨?_, h.frames, ?_, h.rxDropped, h.rxFrames⟩
    · show (passed ++ (r.fifo.send m).2.items).Sublist _
      rw [hitems, ← List.append_assoc]
      exact h.order.append_right [m]
    · show _ = passed.length + (r.fifo.send m).2.items.length + _ + _
      rw [overflow, if_pos hsent, hitems, List.length_append, List.length_append]
      omega
  · have hsend := Fifo.send_of_full hroom m
    refine ⟨?_, h.frames, ?_, h.rxDropped, h.rxFrames⟩
    · show (passed ++ (r.fifo.send m).2.items).Sublist _
      rw [hsend]
      exact h.order.trans (List.sublist_append_left came [m])
    · show _ = passed.length + (r.fifo.send m).2.items.length + _ + _
      rw [overflow, hsend, if_neg Bool.false_ne_true, List.length_append, List.length_singleton]
      dsimp only
      omega

/-- A message leaves the FIFO and its frame goes to the queue, if there is room. -/
theorem conserved_turn (h : Conserved r came read passed lost dropped) (buf : Payload) (ok : Bool) :
    ∃ passed dropped, Conserved (r.turn buf ok) came read passed lost dropped := by
  unfold turn
  cases hrecv : r.fifo.receive with
  | none => exact ⟨passed, dropped, h.order, h.frames, h.count, h.rxDropped, h.rxFrames⟩
  | some next =>
    obtain ⟨m, fifo⟩ := next
    have horder := h.order
    have hcount := h.count
    rw [Fifo.items_of_receive hrecv] at horder hcount
    rw [List.length_cons] at hcount
    cases ok with
    | false => exact ⟨passed, dropped, h.order, h.frames, h.count, h.rxDropped, h.rxFrames⟩
    | true =>
      obtain ⟨q, hsent, hitems⟩ | hfull := canRxIsr_cases
        { r with fifo := fifo, draining := some (rxFrame m buf).data } (rxFrame m buf)
      · refine ⟨passed ++ [m], dropped, ?_⟩
        simp only [if_true, hsent]
        refine ⟨?_, ?_, ?_, h.rxDropped, h.rxFrames⟩
        · rw [List.append_assoc]; exact horder
        · show List.Forall₂ Carries _ (read ++ q.items)
          rw [hitems, ← List.append_assoc]
          exact List.rel_append h.frames (.cons ⟨buf, rfl⟩ .nil)
        · rw [List.length_append, List.length_singleton]; dsimp only; omega
      · refine ⟨passed, dropped + 1, ?_⟩
        simp only [if_true, hfull]
        refine ⟨?_, h.frames, ?_, ?_, h.rxFrames⟩
        · exact ((List.sublist_cons_self m fifo.items).append_left passed).trans horder
        · dsimp only; omega
        · rw [UInt32.ofNat_add, ← h.rxDropped]; rfl

theorem conserved_receive (h : Conserved r came read passed lost dropped) :
    Conserved r.receive.2 came (read ++ r.receive.1.toList) passed lost dropped := by
  unfold receive
  cases hrecv : r.rxQueue.bind Fifo.receive with
  | none => simpa using h
  | some next =>
    obtain ⟨f, q'⟩ := next
    obtain ⟨q, hq, hnext⟩ := Option.bind_eq_some_iff.mp hrecv
    have hframes := h.frames
    rw [waiting, hq, Option.map_some, Option.getD_some, Fifo.items_of_receive hnext] at hframes
    refine ⟨h.order, ?_, h.count, h.rxDropped, ?_⟩
    · show List.Forall₂ Carries passed (read ++ [f] ++ q'.items)
      rw [List.append_assoc]
      exact hframes
    · show r.rxFrames + 1 = _
      rw [h.rxFrames, Option.toList_some, List.length_append, List.length_singleton,
        UInt32.ofNat_add]
      rfl

/-- The messages, after each event. -/
theorem conserved_act (h : Conserved r came read passed lost dropped) (ev : RxEvent) :
    ∃ passed dropped, Conserved (r.act ev) (came ++ arrived [ev])
      (read ++ (r.handled? ev).toList) passed (lost + r.overflow ev) dropped := by
  cases ev with
  | arrive m => exact ⟨passed, dropped, by simpa [arrived, handled?] using conserved_arrive h m⟩
  | receive =>
    exact ⟨passed, dropped, by simpa [arrived, handled?, overflow, act] using conserved_receive h⟩
  | turn ok =>
    simp only [arrived, handled?, overflow, act, List.filterMap_cons, List.filterMap_nil,
      Option.toList_none, List.append_nil, Nat.add_zero]
    cases r.draining with
    | none => exact ⟨passed, dropped, h⟩
    | some buf => exact conserved_turn h buf ok
  | create =>
    refine ⟨passed, dropped, ?_⟩
    simp only [arrived, handled?, overflow, act, List.filterMap_cons, List.filterMap_nil,
      Option.toList_none, List.append_nil, Nat.add_zero]
    cases hq : r.rxQueue with
    | some q => exact h
    | none =>
      refine ⟨h.order, ?_, h.count, h.rxDropped, h.rxFrames⟩
      have hframes := h.frames
      rw [waiting, hq] at hframes
      exact hframes
  | callback messageLost newMessage stack =>
    refine ⟨passed, dropped, ?_⟩
    simp only [arrived, handled?, overflow, act, List.filterMap_cons, List.filterMap_nil,
      Option.toList_none, List.append_nil, Nat.add_zero]
    split
    · exact h
    · cases messageLost <;> cases newMessage <;>
        exact ⟨h.order, h.frames, h.count, h.rxDropped, h.rxFrames⟩

theorem conserved_run (events : List RxEvent) :
    ∃ passed dropped, Conserved (start.run events) (arrived events) (start.handled events) passed
      (start.overflows events) dropped := by
  induction events using List.reverseRecOn with
  | nil => exact ⟨[], 0, conserved_start⟩
  | append_singleton events ev ih =>
    obtain ⟨passed, dropped, h⟩ := ih
    rw [run_snoc, arrived_snoc, handled_snoc, overflows_snoc]
    exact conserved_act h ev

end Conserved

/-- In whatever order the controller, the interrupt and the task take their turns: the frames that
the task has read or will read are those of the messages, in their order; a message that is missing
is still in the controller, was lost there or is in `rx_dropped`; and where none was lost or
dropped, none is missing. -/
theorem conserves (events : List RxEvent) :
    ∃ passed dropped,
      List.Forall₂ Carries passed (start.handled events ++ (start.run events).waiting) ∧
      (passed ++ (start.run events).fifo.items).Sublist (arrived events) ∧
      (arrived events).length = passed.length + (start.run events).fifo.items.length +
        start.overflows events + dropped ∧
      (start.run events).rxDropped = UInt32.ofNat dropped ∧
      (start.run events).rxFrames = UInt32.ofNat (start.handled events).length ∧
      (start.overflows events = 0 → dropped = 0 →
        passed ++ (start.run events).fifo.items = arrived events) := by
  obtain ⟨passed, dropped, h⟩ := conserved_run events
  refine ⟨passed, dropped, h.frames, h.order, h.count, h.rxDropped, h.rxFrames,
    fun hlost hdropped => h.order.eq_of_length ?_⟩
  rw [h.count, hlost, hdropped, List.length_append]
  rfl

end Reception

end Rjs

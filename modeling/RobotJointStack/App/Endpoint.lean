import RobotJointStack.App.Sweep
import RobotJointStack.Board.Reception

/-!
# App.Endpoint

A node with its receive path: the controller, the interrupt and `can_rx_task`, which takes a frame
from the queue in one step and handles it in another. In between, every other task may run. On the
bus are messages now, and what reaches a node is a message in the FIFO of its controller.

* `endpoint_simulates`: an endpoint is a node whose frames come late, or not at all.
* `endpoints_refine`: so a network of endpoints does nothing that a network of nodes does not do.
-/

namespace Rjs

open Network

/-- `inHand` is the frame that `can_rx_task` has read and not handled yet. -/
structure Endpoint where
  node : Node
  rx : Reception
  inHand : Option CanFrame

inductive EndpointEvent where
  | reception (ev : RxEvent)
  | handle (millis : UInt32)
  | task (ev : NodeEvent)

namespace Endpoint

def start (nodeId : UInt8) (millis : UInt32) : Endpoint where
  node := Node.start nodeId millis
  rx := Reception.start
  inHand := none

/-- Whether a task is at an event: frames come from the queue only, and `can_rx_task` does not poll
before it has handled its frame. -/
def ready (s : Endpoint) : NodeEvent → Bool
  | .frame _ _ => false
  | .poll _ => s.inHand.isNone
  | _ => true

def act (s : Endpoint) : EndpointEvent → Endpoint
  | .reception .receive =>
    if s.inHand.isNone then { s with rx := s.rx.receive.2, inHand := s.rx.receive.1 } else s
  | .reception ev => { s with rx := s.rx.act ev }
  | .handle millis =>
    match s.inHand with
    | some f => { s with node := s.node.act (.frame f millis), inHand := none }
    | none => s
  | .task ev => if s.ready ev then { s with node := s.node.act ev } else s

/-- The events of the node in an event of the endpoint. -/
def events (s : Endpoint) : EndpointEvent → List NodeEvent
  | .reception _ => []
  | .handle millis => s.inHand.toList.map (.frame · millis)
  | .task ev => if s.ready ev then [ev] else []

def transmits (s : Endpoint) : EndpointEvent → List Transmission
  | .task ev => if s.ready ev then s.node.transmits ev else []
  | _ => []

end Endpoint

/-- The bus delivers what `rjs_can_send` has taken. -/
def Transmission.Reaches (t : Transmission) (m : RxMessage) : Prop :=
  t.2 = .ok ∧ Delivered (txHeader t.1) t.1.data m

def endpointParty : Party Endpoint EndpointEvent Transmission RxMessage where
  act := Endpoint.act
  sends := Endpoint.transmits
  takes := fun
    | .reception (.arrive m) => some m
    | _ => none
  arrives := Transmission.Reaches

/-- Endpoints with the identifiers `ids`, started at the times `clock`. -/
def Endpoint.network {ι : Type} (ids : ι → UInt8) (clock : ι → UInt32) :
    Network ι Endpoint Transmission := Network.start fun i => Endpoint.start (ids i) (clock i)

section Genuine

variable {ι : Type}

/-- What is on the receive path has been sent by another endpoint. -/
structure Endpoint.Genuine (sent : List (ι × Transmission)) (i : ι) (s : Endpoint) : Prop where
  fifo : ∀ m ∈ s.rx.fifo.items, Offers endpointParty sent i m
  queue : ∀ f ∈ s.rx.waiting, Offers nodeParty sent i f
  inHand : ∀ f ∈ s.inHand, Offers nodeParty sent i f

variable {sent more : List (ι × Transmission)} {i : ι} {s : Endpoint}

theorem offers_rxFrame {m : RxMessage} (h : Offers endpointParty sent i m) (buf : Payload) :
    Offers nodeParty sent i (rxFrame m buf) := by
  obtain ⟨j, t, hmem, hne, hok, hm⟩ := h
  exact ⟨j, t, hmem, hne, hok, m, buf, hm, rfl⟩

theorem Endpoint.Genuine.mono (h : s.Genuine sent i) : s.Genuine (sent ++ more) i where
  fifo m hm := (h.fifo m hm).mono (List.subset_append_left _ _)
  queue f hf := (h.queue f hf).mono (List.subset_append_left _ _)
  inHand f hf := (h.inHand f hf).mono (List.subset_append_left _ _)

namespace Reception

/-- What a turn of the callback leaves behind was there, or is the frame of a message that was. -/
theorem mem_turn (r : Reception) (buf : Payload) (ok : Bool) :
    (∀ m ∈ (r.turn buf ok).fifo.items, m ∈ r.fifo.items) ∧
      ∀ f ∈ (r.turn buf ok).waiting, f ∈ r.waiting ∨ ∃ m ∈ r.fifo.items, f = rxFrame m buf := by
  unfold turn
  cases hrecv : r.fifo.receive with
  | none => exact ⟨fun _ hm => hm, fun _ hf => .inl hf⟩
  | some next =>
    obtain ⟨m, fifo⟩ := next
    obtain ⟨hm, hrest⟩ := Fifo.mem_of_receive hrecv
    cases ok with
    | false => exact ⟨fun _ hm => hm, fun _ hf => .inl hf⟩
    | true =>
      simp only [if_true]
      obtain ⟨q, hsent, hitems⟩ | hfull := canRxIsr_cases
        { r with fifo := fifo, draining := some (rxFrame m buf).data } (rxFrame m buf)
      · rw [hsent]
        refine ⟨hrest, fun f (hf : f ∈ q.items) => ?_⟩
        rw [hitems] at hf
        rcases List.mem_append.mp hf with hold | hnew
        · exact .inl hold
        · exact .inr ⟨m, hm, List.mem_singleton.mp hnew⟩
      · rw [hfull]
        exact ⟨hrest, fun _ hf => .inl hf⟩

theorem mem_receive (r : Reception) :
    (∀ f ∈ r.receive.1, f ∈ r.waiting) ∧ r.receive.2.fifo = r.fifo ∧
      ∀ f ∈ r.receive.2.waiting, f ∈ r.waiting := by
  unfold receive waiting
  cases hq : r.rxQueue with
  | none => simp [hq]
  | some q =>
    cases hrecv : q.receive with
    | none => simp [hrecv, hq]
    | some next =>
      obtain ⟨f, q'⟩ := next
      obtain ⟨hf, hrest⟩ := Fifo.mem_of_receive hrecv
      simpa [hrecv] using ⟨hf, hrest⟩

/-- What an event leaves on the path was there or has just come. -/
theorem mem_act (r : Reception) (ev : RxEvent) :
    (∀ m ∈ (r.act ev).fifo.items, m ∈ r.fifo.items ∨ ev = .arrive m) ∧
      ∀ f ∈ (r.act ev).waiting,
        f ∈ r.waiting ∨ ∃ m ∈ r.fifo.items, ∃ buf, f = rxFrame m buf := by
  cases ev with
  | arrive m =>
    refine ⟨fun m' hm' => ?_, fun _ hf => .inl hf⟩
    rcases Fifo.mem_of_mem_send hm' with hold | rfl
    · exact .inl hold
    · exact .inr rfl
  | create =>
    simp only [act]
    split
    · exact ⟨fun _ hm => .inl hm, fun _ hf => .inl hf⟩
    · exact ⟨fun _ hm => .inl hm, fun _ hf => absurd hf List.not_mem_nil⟩
  | callback messageLost newMessage stack =>
    simp only [act]
    split
    · exact ⟨fun _ hm => .inl hm, fun _ hf => .inl hf⟩
    · cases messageLost <;> cases newMessage <;>
        exact ⟨fun _ hm => .inl hm, fun _ hf => .inl hf⟩
  | turn ok =>
    simp only [act]
    split
    · rename_i buf _
      obtain ⟨hfifo, hqueue⟩ := r.mem_turn buf ok
      refine ⟨fun m hm => .inl (hfifo m hm), fun f hf => (hqueue f hf).imp_right ?_⟩
      rintro ⟨m, hm, hf⟩
      exact ⟨m, hm, buf, hf⟩
    · exact ⟨fun _ hm => .inl hm, fun _ hf => .inl hf⟩
  | receive =>
    obtain ⟨-, hfifo, hqueue⟩ := r.mem_receive
    simp only [act, hfifo]
    exact ⟨fun _ hm => .inl hm, fun f hf => .inl (hqueue f hf)⟩

end Reception

theorem genuine_reception (h : s.Genuine sent i) {ev : RxEvent}
    (hev : ∀ m, ev = .arrive m → Offers endpointParty sent i m) :
    ({ s with rx := s.rx.act ev } : Endpoint).Genuine sent i := by
  obtain ⟨hfifo, hqueue⟩ := s.rx.mem_act ev
  refine ⟨fun m hm => ?_, fun f hf => ?_, h.inHand⟩
  · rcases hfifo m hm with hold | hnew
    · exact h.fifo m hold
    · exact hev m hnew
  · obtain hold | ⟨m, hm, buf, rfl⟩ := hqueue f hf
    · exact h.queue f hold
    · exact offers_rxFrame (h.fifo m hm) buf

theorem genuine_act (h : s.Genuine sent i) {ev : EndpointEvent}
    (hev : ∀ m ∈ endpointParty.takes ev, Offers endpointParty sent i m) :
    (s.act ev).Genuine sent i := by
  cases ev with
  | reception ev =>
    cases ev with
    | receive =>
      obtain ⟨hread, hfifo, hqueue⟩ := s.rx.mem_receive
      simp only [Endpoint.act]
      split
      · refine ⟨?_, fun f hf => h.queue f (hqueue f hf), fun f hf => h.queue f (hread f hf)⟩
        show ∀ m ∈ s.rx.receive.2.fifo.items, _
        rw [hfifo]
        exact h.fifo
      · exact h
    | arrive m => exact genuine_reception h fun m' hm' => by cases hm'; exact hev m rfl
    | _ => exact genuine_reception h nofun
  | handle millis =>
    simp only [Endpoint.act]
    split
    · exact ⟨h.fifo, h.queue, nofun⟩
    · exact h
  | task ev =>
    simp only [Endpoint.act]
    split
    · exact ⟨h.fifo, h.queue, h.inHand⟩
    · exact h

end Genuine

section Refine

variable {ι : Type}

/-- An endpoint does what its node does with the frames that get through. -/
theorem endpoint_simulates :
    Simulates endpointParty nodeParty Endpoint.node Endpoint.events
      (fun (sent : List (ι × Transmission)) i s => s.Genuine sent i) where
  stable h := h.mono
  step h hev := genuine_act h hev
  act {_ _ s e} _ := by
    cases e with
    | reception ev =>
      cases ev with
      | receive => simp only [endpointParty, Endpoint.act, Endpoint.events]; split <;> rfl
      | _ => rfl
    | handle millis =>
      simp only [endpointParty, Endpoint.act, Endpoint.events]
      cases s.inHand <;> rfl
    | task ev =>
      simp only [endpointParty, Endpoint.act, Endpoint.events]
      split <;> rfl
  sends {_ _ s e} _ := by
    cases e with
    | reception ev => rfl
    | handle millis =>
      simp only [endpointParty, Endpoint.transmits, Endpoint.events]
      cases s.inHand <;> rfl
    | task ev =>
      simp only [endpointParty, Endpoint.transmits, Endpoint.events]
      split
      · exact (List.append_nil _).symm
      · rfl
  offers {sent i s e} h a ha r hr := by
    cases e with
    | reception ev => cases ha
    | handle millis =>
      obtain ⟨f, hf, rfl⟩ := List.mem_map.mp ha
      cases hr
      exact h.inHand _ (Option.mem_toList.mp hf)
    | task ev =>
      simp only [Endpoint.events] at ha
      split at ha
      · rename_i hready
        rw [List.mem_singleton.mp ha] at hr
        cases ev with
        | frame f millis => cases hready
        | _ => simp [nodeParty] at hr
      · cases ha

theorem genuine_start (ids : ι → UInt8) (clock : ι → UInt32) :
    (Endpoint.network ids clock).Holds
      fun (sent : List (ι × Transmission)) i s => s.Genuine sent i := fun _ =>
  { fifo := fun _ h => absurd h List.not_mem_nil
    queue := fun _ h => absurd h List.not_mem_nil
    inHand := nofun }

variable [DecidableEq ι]

/-- **Endpoints refine nodes.** Every run of a network of endpoints, with the FIFOs of three, the
queues of 32, the interrupts and the frames in hand, is a run of a network of nodes that hands the
same frames to the bus and leaves every node in the same state. -/
theorem endpoints_refine {ids : ι → UInt8} {clock : ι → UInt32} {es : List (ι × EndpointEvent)}
    (hrun : (Endpoint.network ids clock).IsRun endpointParty es) :
    ∃ events : List (ι × NodeEvent), (Node.network ids clock).IsRun nodeParty events ∧
      ((Node.network ids clock).run nodeParty events).sent =
        ((Endpoint.network ids clock).run endpointParty es).sent ∧
      ∀ i, ((Node.network ids clock).run nodeParty events).node i =
        (((Endpoint.network ids clock).run endpointParty es).node i).node := by
  obtain ⟨events, hevents, heq⟩ := endpoint_simulates.run (genuine_start ids clock) hrun
  exact ⟨events, hevents, congrArg Network.sent heq, congrFun (congrArg Network.node heq)⟩

end Refine

/-- The first command on its way through the other joint's FIFO and queue. -/
theorem endpoints_refine_pair :
    ∃ events, (Node.network pairIds fun _ => 0).IsRun nodeParty events ∧
      (((Node.network pairIds fun _ => 0).run nodeParty events).node 1).app.joint.mode =
        JointMode.position.code := by
  let f := Node.commandFrame 0 ⟨1, 90000, 90000, 1⟩
  let es : List (Fin 2 × EndpointEvent) :=
    [(0, .task .readSnapshot), (0, .task (.heartbeat ⟨false, false⟩ 100 .ok)),
      (0, .task (.command false 100 100 .ok)), (1, .reception .create),
      (1, .reception (.arrive (f.message))),
      (1, .reception (.callback false true default)), (1, .reception (.turn true)),
      (1, .reception .receive), (1, .handle 101), (1, .task (.control .ok))]
  have hrun : (Endpoint.network pairIds fun _ => 0).IsRun endpointParty es := by
    refine ⟨nofun, nofun, nofun, nofun, fun m hm => ?_, nofun, nofun, nofun, nofun, nofun, trivial⟩
    cases hm
    exact ⟨0, (f, .ok), by decide +kernel, by decide, rfl, f.delivered_message⟩
  obtain ⟨events, hevents, -, hnode⟩ := endpoints_refine hrun
  refine ⟨events, hevents, ?_⟩
  rw [hnode]
  decide +kernel

end Rjs

import RobotJointStack.Board.Fdcan
import RobotJointStack.Lib.Fifo
import RobotJointStack.Lib.Machine
import RobotJointStack.Lib.Network
import RobotJointStack.Lib.SharedCounter

/-!
# App.Transmit

`can_send` of `app.c` and `rjs_can_send` under it, with the steps of the tasks that call them
interleaved. The mutex keeps `rjs_can_send` to one task at a time, so that nobody comes between its
look at the free level and its message, or between the two halves of `s_tx_dropped++`. The
statistics are counted when the mutex has been given back, and there nobody keeps the tasks apart.

The controller takes messages out of its three elements at any time.

* `canSend_eq`: the checks of `rjs_can_send` in the order in which the steps make them.
* `sound_act`: one step of one task, or of the controller.
* `transmit_sound`: every run is one of calls of `rjs_can_send` one after the other.
-/

namespace Rjs

open Machine Network

def txFifoDepth : Nat := 3

/-- What the controller is given for a frame. -/
abbrev TxMessage := TxHeader × Payload

def txMessage (f : CanFrame) : TxMessage := (txHeader f, f.data)

/-- The frames that `rjs_can_send` refuses as they are. -/
def Malformed (f : CanFrame) : Prop :=
  f.id > 0x7FF ∨ fdLenToDlc f.len = 0xFF ∨ (¬f.fd ∧ f.len > 8)

instance : DecidablePred Malformed := fun _ => inferInstanceAs (Decidable (_ ∨ _))

/-- Where a task is: outside `can_send`; at the mutex; in `rjs_can_send`, before its checks, before
its message or before one of the two halves of `s_tx_dropped++`; at the end of it; or behind the
mutex, before one of the two halves of its count. -/
inductive SendPc where
  | outside
  | taking (f : CanFrame)
  | entered (f : CanFrame)
  | checked (f : CanFrame)
  | refused (f : CanFrame)
  | dropping (f : CanFrame)
  | giving (r : CanResult)
  | given (r : CanResult)
  | counting (r : CanResult)
deriving DecidableEq

/-- The tasks `ι` and what they share. The last three fields are the history: the messages that
have left the controller, and what `rjs_can_send` has returned and `can_send` counted. -/
structure TxPath (ι : Type) where
  pc : ι → SendPc
  mutex : Option ι
  fifo : Fifo TxMessage
  txDropped : SharedCounter ι
  txFrames : SharedCounter ι
  txBusy : SharedCounter ι
  bus : List TxMessage
  results : List (ι × CanFrame × CanResult)
  counted : List (ι × CanResult)

inductive TxEvent (ι : Type) where
  | call (i : ι) (f : CanFrame)
  | step (i : ι)
  | transmit

namespace TxPath

section Act

variable {ι : Type}

def start : TxPath ι where
  pc := fun _ => .outside
  mutex := none
  fifo := Fifo.create txFifoDepth
  txDropped := .zero
  txFrames := .zero
  txBusy := .zero
  bus := []
  results := []
  counted := []

variable [DecidableEq ι]

def goto (s : TxPath ι) (i : ι) (pc : SendPc) : TxPath ι :=
  { s with pc := Function.update s.pc i pc }

/-- `rjs_can_send` comes to its result. -/
def result (s : TxPath ι) (i : ι) (f : CanFrame) (r : CanResult) : TxPath ι :=
  { s with results := s.results ++ [(i, f, r)] }.goto i (.giving r)

def step (s : TxPath ι) (i : ι) : Option (TxPath ι) :=
  match s.pc i with
  | .outside => none
  | .taking f =>
    if s.mutex = none then some ({ s with mutex := some i }.goto i (.entered f)) else none
  | .entered f =>
    if Malformed f then some (s.result i f .errParam)
    else if s.fifo.items.length = s.fifo.depth then some (s.goto i (.refused f))
    else some (s.goto i (.checked f))
  | .checked f =>
    let (ok, fifo) := s.fifo.send (txMessage f)
    if ok then some ({ s with fifo := fifo }.result i f .ok) else some (s.goto i (.refused f))
  | .refused f => some ({ s with txDropped := s.txDropped.load i }.goto i (.dropping f))
  | .dropping f => some ({ s with txDropped := s.txDropped.store i }.result i f .errBusy)
  | .giving r => some ({ s with mutex := none }.goto i (.given r))
  | .given r =>
    if r = .ok then some ({ s with txFrames := s.txFrames.load i }.goto i (.counting r))
    else some ({ s with txBusy := s.txBusy.load i }.goto i (.counting r))
  | .counting r =>
    let s := { s with counted := s.counted ++ [(i, r)] }
    if r = .ok then some ({ s with txFrames := s.txFrames.store i }.goto i .outside)
    else some ({ s with txBusy := s.txBusy.store i }.goto i .outside)

def act (s : TxPath ι) : TxEvent ι → Option (TxPath ι)
  | .call i f => if s.pc i = .outside then some (s.goto i (.taking f)) else none
  | .step i => s.step i
  | .transmit =>
    match s.fifo.receive with
    | some (m, fifo) => some { s with fifo := fifo, bus := s.bus ++ [m] }
    | none => none

end Act

end TxPath

/-- `rjs_can_send` in one piece. -/
theorem canSend_eq (hw : TxHardware) (s : CanPort) (f : CanFrame) :
    canSend hw s (some f) =
      if Malformed f then (.errParam, s)
      else if hw.freeLevel ≠ 0 ∧ hw.addMessage (txHeader f) f.data then
        (.ok, { s with sent := s.sent ++ [txMessage f] })
      else (.errBusy, { s with txDropped := s.txDropped + 1 }) := by
  simp only [canSend]
  by_cases hm : Malformed f
  · rw [if_pos hm]
    rcases hm with hid | hlen
    · rw [if_pos hid]
    · by_cases hid : f.id > 0x7FF
      · rw [if_pos hid]
      · rw [if_neg hid, if_pos hlen]
  · obtain ⟨hid, hlen⟩ := not_or.mp hm
    rw [if_neg hm, if_neg hid, if_neg hlen]
    by_cases hfree : hw.freeLevel = 0
    · rw [if_pos hfree, if_neg fun h => h.1 hfree]
    · rw [if_neg hfree]
      by_cases hadd : hw.addMessage (txHeader f) f.data = true
      · rw [if_pos hadd, if_pos ⟨hfree, hadd⟩]
        rfl
      · rw [if_neg hadd, if_neg fun h => hadd h.2]

/-- What the port comes to when `rjs_can_send` is called for one frame after the other, with any free
levels. A message for which there is room is taken. -/
inductive Serial : CanPort → List (CanFrame × CanResult) → Prop where
  | nil : Serial ⟨0, []⟩ []
  | call {port : CanPort} {calls : List (CanFrame × CanResult)} (h : Serial port calls)
      (hw : TxHardware) (f : CanFrame)
      (htaken : hw.freeLevel ≠ 0 → hw.addMessage (txHeader f) f.data = true) :
      Serial (canSend hw port (some f)).2 (calls ++ [(f, (canSend hw port (some f)).1)])

namespace Serial

variable {port : CanPort} {calls : List (CanFrame × CanResult)} {f : CanFrame}

theorem malformed (h : Serial port calls) (hm : Malformed f) :
    Serial port (calls ++ [(f, .errParam)]) := by
  have hcall := h.call ⟨0, fun _ _ => true⟩ f fun _ => rfl
  rw [canSend_eq, if_pos hm] at hcall
  exact hcall

theorem taken (h : Serial port calls) (hm : ¬Malformed f) :
    Serial { port with sent := port.sent ++ [txMessage f] } (calls ++ [(f, .ok)]) := by
  have hcall := h.call ⟨1, fun _ _ => true⟩ f fun _ => rfl
  rw [canSend_eq, if_neg hm, if_pos ⟨by decide, rfl⟩] at hcall
  exact hcall

theorem busy (h : Serial port calls) (hm : ¬Malformed f) :
    Serial { port with txDropped := port.txDropped + 1 } (calls ++ [(f, .errBusy)]) := by
  have hcall := h.call ⟨0, fun _ _ => true⟩ f fun _ => rfl
  rw [canSend_eq, if_neg hm, if_neg fun hfree => hfree.1 rfl] at hcall
  exact hcall

/-- The messages of the calls that came to `RJS_CAN_OK`. -/
def accepted (calls : List (CanFrame × CanResult)) : List TxMessage :=
  (calls.filter fun c => c.2 = .ok).map fun c => txMessage c.1

theorem port_eq (h : Serial port calls) :
    port.sent = accepted calls ∧
      port.txDropped = UInt32.ofNat (calls.countP fun c => c.2 = .errBusy) := by
  induction h with
  | nil => exact ⟨rfl, rfl⟩
  | @call port calls h hw f htaken ih =>
    obtain ⟨hsent, hdropped⟩ := ih
    rw [canSend_eq]
    by_cases hm : Malformed f
    · rw [if_pos hm]
      simp [accepted, hsent, hdropped]
    · rw [if_neg hm]
      split
      · simp [accepted, hsent, hdropped]
      · simp [accepted, hsent, hdropped, UInt32.ofNat_add]

end Serial

/-! ## Places -/

namespace SendPc

/-- Behind the mutex. -/
def inside : SendPc → Bool
  | .entered _ | .checked _ | .refused _ | .dropping _ | .giving _ => true
  | _ => false

def countsDropped : SendPc → Bool
  | .dropping _ => true
  | _ => false

/-- About to count a result: `true` stands for `tx_frames`, `false` for `tx_busy`. -/
def loads : SendPc → Option Bool
  | .given r => some (r = .ok)
  | _ => none

/-- In the middle of counting one. -/
def counts : SendPc → Option Bool
  | .counting r => some (r = .ok)
  | _ => none

/-- The frame that has passed the checks. -/
def passed : SendPc → Option CanFrame
  | .checked f | .refused f | .dropping f => some f
  | _ => none

/-- A result that has not been counted. -/
def pending : SendPc → List CanResult
  | .giving r | .given r | .counting r => [r]
  | _ => []

end SendPc

namespace TxPath

variable {ι : Type} [DecidableEq ι]

/-- The steps, one for each way they can go. -/
inductive Moves (s : TxPath ι) : TxEvent ι → TxPath ι → Prop where
  | call {i f} (hpc : s.pc i = .outside) : Moves s (.call i f) (s.goto i (.taking f))
  | take {i f} (hpc : s.pc i = .taking f) (hfree : s.mutex = none) :
      Moves s (.step i) ({ s with mutex := some i }.goto i (.entered f))
  | malformed {i f} (hpc : s.pc i = .entered f) (hm : Malformed f) :
      Moves s (.step i) (s.result i f .errParam)
  | full {i f} (hpc : s.pc i = .entered f) (hm : ¬Malformed f) :
      Moves s (.step i) (s.goto i (.refused f))
  | room {i f} (hpc : s.pc i = .entered f) (hm : ¬Malformed f)
      (hroom : s.fifo.items.length < s.fifo.depth) : Moves s (.step i) (s.goto i (.checked f))
  | add {i f} (hpc : s.pc i = .checked f) {fifo}
      (hfifo : fifo.items = s.fifo.items ++ [txMessage f]) :
      Moves s (.step i) ({ s with fifo := fifo }.result i f .ok)
  | notAdded {i f} (hpc : s.pc i = .checked f) (hfull : ¬s.fifo.items.length < s.fifo.depth) :
      Moves s (.step i) (s.goto i (.refused f))
  | loadDropped {i f} (hpc : s.pc i = .refused f) :
      Moves s (.step i) ({ s with txDropped := s.txDropped.load i }.goto i (.dropping f))
  | storeDropped {i f} (hpc : s.pc i = .dropping f) :
      Moves s (.step i) ({ s with txDropped := s.txDropped.store i }.result i f .errBusy)
  | give {i r} (hpc : s.pc i = .giving r) :
      Moves s (.step i) ({ s with mutex := none }.goto i (.given r))
  | loadFrames {i} (hpc : s.pc i = .given .ok) :
      Moves s (.step i) ({ s with txFrames := s.txFrames.load i }.goto i (.counting .ok))
  | loadBusy {i r} (hpc : s.pc i = .given r) (hr : r ≠ .ok) :
      Moves s (.step i) ({ s with txBusy := s.txBusy.load i }.goto i (.counting r))
  | storeFrames {i} (hpc : s.pc i = .counting .ok) :
      Moves s (.step i) ({ s with
        counted := s.counted ++ [(i, CanResult.ok)]
        txFrames := s.txFrames.store i }.goto i .outside)
  | storeBusy {i r} (hpc : s.pc i = .counting r) (hr : r ≠ .ok) :
      Moves s (.step i) ({ s with
        counted := s.counted ++ [(i, r)]
        txBusy := s.txBusy.store i }.goto i .outside)
  | transmit {m fifo} (hm : s.fifo.receive = some (m, fifo)) :
      Moves s .transmit { s with fifo := fifo, bus := s.bus ++ [m] }

theorem moves_of_step {s t : TxPath ι} {i : ι} (h : s.step i = some t) :
    s.Moves (.step i) t := by
  cases hpc : s.pc i with
  | outside => simp [step, hpc] at h
  | taking f =>
    simp only [step, hpc, Option.ite_none_right_eq_some, Option.some.injEq] at h
    obtain ⟨hfree, rfl⟩ := h
    exact .take hpc hfree
  | entered f =>
    simp only [step, hpc] at h
    split at h
    · cases h
      exact .malformed hpc ‹_›
    · split at h
      · cases h
        exact .full hpc ‹_›
      · cases h
        exact .room hpc ‹_› (Nat.lt_of_le_of_ne s.fifo.bounded ‹_›)
  | checked f =>
    simp only [step, hpc] at h
    by_cases hroom : s.fifo.items.length < s.fifo.depth
    · obtain ⟨hok, hitems⟩ := Fifo.send_of_room hroom (txMessage f)
      rw [hok, if_pos rfl] at h
      cases h
      exact .add hpc hitems
    · rw [Fifo.send_of_full hroom] at h
      cases h
      exact .notAdded hpc hroom
  | refused f =>
    simp only [step, hpc, Option.some.injEq] at h
    subst h
    exact .loadDropped hpc
  | dropping f =>
    simp only [step, hpc, Option.some.injEq] at h
    subst h
    exact .storeDropped hpc
  | giving r =>
    simp only [step, hpc, Option.some.injEq] at h
    subst h
    exact .give hpc
  | given r =>
    simp only [step, hpc] at h
    split at h
    · rename_i hr
      subst hr
      cases h
      exact .loadFrames hpc
    · cases h
      exact .loadBusy hpc ‹_›
  | counting r =>
    simp only [step, hpc] at h
    split at h
    · rename_i hr
      subst hr
      cases h
      exact .storeFrames hpc
    · cases h
      exact .storeBusy hpc ‹_›

theorem moves_of_act {s t : TxPath ι} {e : TxEvent ι} (h : s.act e = some t) :
    s.Moves e t := by
  cases e with
  | call i f =>
    simp only [act, Option.ite_none_right_eq_some, Option.some.injEq] at h
    obtain ⟨hpc, rfl⟩ := h
    exact .call hpc
  | step i => exact moves_of_step h
  | transmit =>
    simp only [act] at h
    split at h
    · cases h
      exact .transmit ‹_›
    · cases h

/-! ## The invariant -/

/-- The mutex belongs to the task behind it. -/
def Owner (s : TxPath ι) : Prop := ∀ i, (s.pc i).inside = true ↔ s.mutex = some i

/-- A task that has seen room still has it. -/
def Room (s : TxPath ι) : Prop :=
  ∀ i f, s.pc i = .checked f → s.fifo.items.length < s.fifo.depth

def Passed (s : TxPath ι) : Prop := ∀ i f, (s.pc i).passed = some f → ¬Malformed f

/-- `rjs_can_send` is called for one frame after the other. -/
def Serialized (s : TxPath ι) : Prop :=
  Serial ⟨s.txDropped.value, s.bus ++ s.fifo.items⟩ (s.results.map Prod.snd)

/-- Every task has counted its results, but for the last one. -/
def Counted (s : TxPath ι) : Prop :=
  ∀ i, (own i s.results).map Prod.snd = own i s.counted ++ (s.pc i).pending

/-- `tx_frames` and `tx_busy`. -/
def stat (s : TxPath ι) : Bool → SharedCounter ι
  | true => s.txFrames
  | false => s.txBusy

/-- How often `can_send` has counted there. -/
def added (s : TxPath ι) (ok : Bool) : Nat := s.counted.countP fun c => (c.2 = .ok : Bool) = ok

structure Sound (s : TxPath ι) : Prop where
  owner : s.Owner
  room : s.Room
  passed : s.Passed
  serialized : s.Serialized
  counted : s.Counted
  dropped : s.txDropped.Holds s.pc SendPc.countsDropped
  droppedExact : s.txDropped.Exact (s.results.countP fun c => c.2.2 = .errBusy)
  stat : ∀ ok, (s.stat ok).Holds s.pc fun pc => pc.counts = some ok
  statCounts : ∀ ok, ∃ n, (s.stat ok).Counts n (s.added ok)

theorem sound_start : (start : TxPath ι).Sound where
  owner _ := iff_of_false Bool.false_ne_true nofun
  room := nofun
  passed := nofun
  serialized := .nil
  counted _ := rfl
  dropped _ := rfl
  droppedExact := SharedCounter.exact_zero
  stat ok := by cases ok <;> exact fun _ => rfl
  statCounts ok := by cases ok <;> exact ⟨0, SharedCounter.counts_zero⟩

variable {s t : TxPath ι} {i : ι} {e : TxEvent ι}

omit [DecidableEq ι] in
theorem Owner.eq (h : s.Owner) {j : ι} (hi : (s.pc i).inside = true)
    (hj : (s.pc j).inside = true) : i = j :=
  Option.some.inj (((h i).mp hi).symm.trans ((h j).mp hj))

/-- What holds of every task after one has gone on. -/
theorem forall_goto (s : TxPath ι) {i : ι} {pc : SendPc} (P : ι → SendPc → Prop) (hi : P i pc)
    (hothers : ∀ j, j ≠ i → P j (s.pc j)) : ∀ j, P j ((s.goto i pc).pc j) :=
  (Function.forall_update_iff s.pc P).mpr ⟨hi, hothers⟩

theorem Owner.move (h : s.Owner) {pc : SendPc} (hpc : pc.inside = (s.pc i).inside) :
    (s.goto i pc).Owner := by
  refine forall_goto s (fun j pc => pc.inside = true ↔ s.mutex = some j) ?_ fun j _ => h j
  rw [hpc]
  exact h i

theorem Owner.take (h : s.Owner) (hfree : s.mutex = none) {pc : SendPc} (hpc : pc.inside = true) :
    ({ s with mutex := some i }.goto i pc).Owner := by
  refine forall_goto s (fun j pc => pc.inside = true ↔ some i = some j) (iff_of_true hpc rfl) ?_
  intro j hji
  rw [h j, hfree]
  exact iff_of_false nofun fun hj => hji (Option.some.inj hj).symm

theorem Owner.give (h : s.Owner) (hi : (s.pc i).inside = true) {pc : SendPc}
    (hpc : pc.inside = false) : ({ s with mutex := none }.goto i pc).Owner := by
  refine forall_goto s (fun j pc => pc.inside = true ↔ none = some j) ?_ fun j hji => ?_
  · rw [hpc]
    exact iff_of_false Bool.false_ne_true nofun
  · exact iff_of_false (fun hj => hji (h.eq hj hi)) nofun

theorem owner_moves (h : s.Owner) (hst : s.Moves e t) : t.Owner := by
  cases hst with
  | take hpc hfree => exact h.take hfree rfl
  | give hpc => exact h.give (by rw [hpc]; rfl) rfl
  | transmit => exact h
  | call hpc | malformed hpc | full hpc | room hpc | add hpc | notAdded hpc | loadDropped hpc
  | storeDropped hpc | loadFrames hpc | loadBusy hpc | storeFrames hpc | storeBusy hpc =>
    exact h.move (by rw [hpc]; rfl)

theorem Room.move (h : s.Room) {pc : SendPc}
    (hpc : ∀ f, pc = .checked f → s.fifo.items.length < s.fifo.depth) : (s.goto i pc).Room :=
  forall_goto s (fun _ pc => ∀ f, pc = .checked f → s.fifo.items.length < s.fifo.depth) hpc
    fun j _ => h j

omit [DecidableEq ι] in
theorem Room.transmit (h : s.Room) {m : TxMessage} {fifo : Fifo TxMessage} {bus : List TxMessage}
    (hm : s.fifo.receive = some (m, fifo)) : Room { s with fifo := fifo, bus := bus } := by
  intro j f hj
  have hroom := h j f hj
  have hitems := Fifo.items_of_receive hm
  rw [hitems, List.length_cons] at hroom
  show fifo.items.length < fifo.depth
  rw [Fifo.depth_of_receive hm]
  omega

/-- Nobody else is behind the mutex when a message is added. -/
theorem Room.add (howner : s.Owner) {f : CanFrame} (hi : s.pc i = .checked f) (fifo : Fifo TxMessage)
    {r : CanResult} : ({ s with fifo := fifo }.result i f r).Room := by
  refine forall_goto s (fun _ pc => ∀ f, pc = .checked f → fifo.items.length < fifo.depth) nofun ?_
  intro j hji g hj
  exact absurd (howner.eq (by rw [hj]; rfl) (by rw [hi]; rfl)) hji

theorem room_moves (h : s.Sound) (hst : s.Moves e t) : t.Room := by
  cases hst with
  | room hpc hm hroom => exact h.room.move fun _ _ => hroom
  | add hpc => exact .add h.owner hpc _
  | transmit hm => exact h.room.transmit hm
  | _ => exact h.room.move nofun

theorem Passed.move (h : s.Passed) {pc : SendPc} (hpc : ∀ f, pc.passed = some f → ¬Malformed f) :
    (s.goto i pc).Passed :=
  forall_goto s (fun _ pc => ∀ f, pc.passed = some f → ¬Malformed f) hpc fun j _ => h j

theorem passed_moves (h : s.Passed) (hst : s.Moves e t) : t.Passed := by
  cases hst with
  | full hpc hm => exact h.move fun f hf => Option.some.inj hf ▸ hm
  | room hpc hm => exact h.move fun f hf => Option.some.inj hf ▸ hm
  | @notAdded i f hpc => exact h.move fun g hg => h i g (by rw [hpc]; exact hg)
  | @loadDropped i f hpc => exact h.move fun g hg => h i g (by rw [hpc]; exact hg)
  | transmit => exact h
  | _ => exact h.move nofun

theorem serialized_moves (h : s.Sound) (hst : s.Moves e t) : t.Serialized := by
  have hserial := h.serialized
  unfold Serialized at hserial
  cases hst with
  | malformed hpc hm =>
    simp only [Serialized, result, goto, List.map_append]
    exact hserial.malformed hm
  | @add i f hpc fifo hfifo =>
    simp only [Serialized, result, goto, List.map_append, hfifo, ← List.append_assoc]
    exact hserial.taken (h.passed i f (by rw [hpc]; rfl))
  | @storeDropped i f hpc =>
    obtain ⟨v, hv⟩ := h.dropped.held (i := i) (by rw [hpc]; rfl)
    have hvalue : (s.txDropped.store i).value = s.txDropped.value + 1 := by
      rw [← h.droppedExact.held i v hv]
      simp only [SharedCounter.store, hv]
    simp only [Serialized, result, goto, List.map_append, hvalue]
    exact hserial.busy (h.passed i f (by rw [hpc]; rfl))
  | transmit hm =>
    have hitems := Fifo.items_of_receive hm
    rw [hitems, List.append_cons] at hserial
    exact hserial
  | _ => exact hserial

theorem Counted.move (h : s.Counted) {pc : SendPc} (hpc : pc.pending = (s.pc i).pending) :
    (s.goto i pc).Counted := by
  refine forall_goto s
    (fun j pc => (own j s.results).map Prod.snd = own j s.counted ++ pc.pending) ?_ fun j _ => h j
  rw [hpc]
  exact h i

theorem Counted.result (h : s.Counted) (hi : (s.pc i).pending = []) {f : CanFrame} {r : CanResult} :
    (s.result i f r).Counted := by
  have hself := h i
  rw [hi, List.append_nil] at hself
  refine forall_goto s (fun j pc =>
    (own j (s.results ++ [(i, f, r)])).map Prod.snd = own j s.counted ++ pc.pending) ?_ ?_
  · rw [own_concat_self, List.map_append, hself]
    rfl
  · intro j hji
    rw [own_concat_other hji.symm]
    exact h j

theorem Counted.count (h : s.Counted) {r : CanResult} (hi : (s.pc i).pending = [r]) :
    ({ s with counted := s.counted ++ [(i, r)] }.goto i .outside).Counted := by
  have hself := h i
  rw [hi] at hself
  refine forall_goto s (fun j pc =>
    (own j s.results).map Prod.snd = own j (s.counted ++ [(i, r)]) ++ pc.pending) ?_ ?_
  · rw [own_concat_self, hself]
    exact (List.append_nil _).symm
  · intro j hji
    rw [own_concat_other hji.symm]
    exact h j

theorem counted_moves (h : s.Counted) (hst : s.Moves e t) : t.Counted := by
  cases hst with
  | malformed hpc => exact h.result (by rw [hpc]; rfl)
  | add hpc => exact Counted.result (s := { s with fifo := _ }) h (by rw [hpc]; rfl)
  | storeDropped hpc => exact Counted.result (s := { s with txDropped := _ }) h (by rw [hpc]; rfl)
  | storeFrames hpc | storeBusy hpc => exact h.count (by rw [hpc]; rfl)
  | transmit => exact h
  | call hpc | take hpc | full hpc | room hpc | notAdded hpc | loadDropped hpc | give hpc
  | loadFrames hpc | loadBusy hpc =>
    exact h.move (by rw [hpc]; rfl)

/-- Who is between the halves of `s_tx_dropped++` is behind the mutex. -/
theorem Sound.alone (h : s.Sound) (hi : (s.pc i).inside = true) {j : ι} (hji : j ≠ i) :
    s.txDropped.held j = none := by
  refine h.dropped.none ?_
  cases hj : s.pc j with
  | dropping f => exact absurd (h.owner.eq (by rw [hj]; rfl) hi) hji
  | _ => rfl

theorem dropped_moves (h : s.Sound) (hst : s.Moves e t) :
    t.txDropped.Holds t.pc SendPc.countsDropped ∧
      t.txDropped.Exact (t.results.countP fun c => c.2.2 = .errBusy) := by
  have hheld := h.dropped
  have hexact := h.droppedExact
  cases hst with
  | loadDropped hpc => exact ⟨hheld.load rfl, hexact.load⟩
  | @storeDropped i f hpc =>
    obtain ⟨v, hv⟩ := hheld.held (i := i) (by rw [hpc]; rfl)
    have hstore := hexact.store hv fun j hji => h.alone (by rw [hpc]; rfl) hji
    exact ⟨hheld.store (by rw [hpc]; rfl) rfl, by simpa [result, goto] using hstore⟩
  | transmit => exact ⟨hheld, hexact⟩
  | malformed hpc | add hpc =>
    exact ⟨hheld.move (by rw [hpc]; rfl), by simpa [result, goto] using hexact⟩
  | call hpc | take hpc | full hpc | room hpc | notAdded hpc | give hpc | loadFrames hpc
  | loadBusy hpc | storeFrames hpc | storeBusy hpc =>
    exact ⟨hheld.move (by rw [hpc]; rfl), hexact⟩

/-- What one step does to a statistic: nothing, the first half of an increment or the second. -/
theorem stat_moves (h : s.Sound) (hst : s.Moves e t) (ok : Bool) :
    (t.stat ok).Holds t.pc (fun pc => pc.counts = some ok) ∧
      (t.stat ok = s.stat ok ∧ t.added ok = s.added ok ∨
        (∃ i, e = .step i ∧ (s.pc i).loads = some ok ∧ t.stat ok = (s.stat ok).load i ∧
          t.added ok = s.added ok) ∨
        ∃ i v, (s.stat ok).held i = some v ∧ t.stat ok = (s.stat ok).store i ∧
          t.added ok = s.added ok + 1) := by
  have hheld := h.stat ok
  cases hst with
  | @loadFrames i hpc =>
    cases ok with
    | true => exact ⟨hheld.load rfl, .inr (.inl ⟨i, rfl, by rw [hpc]; rfl, rfl, rfl⟩)⟩
    | false => exact ⟨hheld.move (by rw [hpc]; rfl), .inl ⟨rfl, rfl⟩⟩
  | @loadBusy i r hpc hr =>
    cases ok with
    | true => exact ⟨hheld.move (by rw [hpc]; simp [SendPc.counts, hr]), .inl ⟨rfl, rfl⟩⟩
    | false =>
      exact ⟨hheld.load (by simp [SendPc.counts, hr]),
        .inr (.inl ⟨i, rfl, by rw [hpc]; simp [SendPc.loads, hr], rfl, rfl⟩)⟩
  | @storeFrames i hpc =>
    cases ok with
    | true =>
      have hi : decide ((s.pc i).counts = some true) = true := by rw [hpc]; rfl
      obtain ⟨v, hv⟩ := hheld.held hi
      exact ⟨hheld.store hi rfl, .inr (.inr ⟨i, v, hv, rfl, by simp [added, goto]⟩)⟩
    | false =>
      exact ⟨hheld.move (by rw [hpc]; rfl), .inl ⟨rfl, by simp [added, goto]⟩⟩
  | @storeBusy i r hpc hr =>
    cases ok with
    | true =>
      exact ⟨hheld.move (by rw [hpc]; simp [SendPc.counts, hr]),
        .inl ⟨rfl, by simp [added, goto, hr]⟩⟩
    | false =>
      have hi : decide ((s.pc i).counts = some false) = true := by
        rw [hpc]; simp [SendPc.counts, hr]
      obtain ⟨v, hv⟩ := hheld.held hi
      exact ⟨hheld.store hi rfl, .inr (.inr ⟨i, v, hv, rfl, by simp [added, goto, hr]⟩)⟩
  | transmit => exact ⟨by cases ok <;> exact hheld, .inl ⟨by cases ok <;> rfl, rfl⟩⟩
  | call hpc | take hpc | malformed hpc | full hpc | room hpc | add hpc | notAdded hpc
  | loadDropped hpc | storeDropped hpc | give hpc =>
    refine ⟨?_, .inl ⟨by cases ok <;> rfl, rfl⟩⟩
    cases ok <;> exact hheld.move (by rw [hpc]; rfl)

theorem statCounts_moves (h : s.Sound) (hst : s.Moves e t) (ok : Bool) :
    ∃ n, (t.stat ok).Counts n (t.added ok) := by
  obtain ⟨n, hcounts⟩ := h.statCounts ok
  obtain ⟨-, ⟨hstat, hadded⟩ | ⟨i, -, -, hstat, hadded⟩ | ⟨i, v, hv, hstat, hadded⟩⟩ :=
    stat_moves h hst ok
  all_goals rw [hstat, hadded]
  · exact ⟨n, hcounts⟩
  · exact ⟨n, hcounts.load⟩
  · exact hcounts.store hv

theorem sound_act (h : s.Sound) (hact : s.act e = some t) : t.Sound := by
  have hst := moves_of_act hact
  obtain ⟨hdropped, hexact⟩ := dropped_moves h hst
  exact ⟨owner_moves h.owner hst, room_moves h hst, passed_moves h.passed hst,
    serialized_moves h hst, counted_moves h.counted hst, hdropped, hexact,
    fun ok => (stat_moves h hst ok).1, statCounts_moves h hst⟩

theorem sound_run {events : List (TxEvent ι)} (h : s.Sound) (hrun : run act s events = some t) :
    t.Sound := by
  induction events generalizing s with
  | nil =>
    cases hrun
    exact h
  | cons e events ih =>
    obtain ⟨u, hact, hrest⟩ := Option.bind_eq_some_iff.mp hrun
    exact ih (sound_act h hact) hrest

/-- Somebody can always go on: the task behind the mutex, or any other if there is none. -/
theorem step_isSome (h : s.pc i ≠ .outside) (htaking : ∀ f, s.pc i = .taking f → s.mutex = none) :
    (s.step i).isSome = true := by
  unfold step
  cases hpc : s.pc i with
  | outside => exact absurd hpc h
  | taking f => simp only [htaking f hpc, if_true, Option.isSome_some]
  | entered f =>
    dsimp only
    split
    · rfl
    · split <;> rfl
  | checked f =>
    dsimp only
    split <;> rfl
  | refused f => rfl
  | dropping f => rfl
  | giving r => rfl
  | given r =>
    dsimp only
    split <;> rfl
  | counting r =>
    dsimp only
    split <;> rfl

theorem Sound.progress (h : s.Sound) (hi : s.pc i ≠ .outside) : ∃ j, (s.step j).isSome = true := by
  cases hmutex : s.mutex with
  | none => exact ⟨i, step_isSome hi fun _ _ => hmutex⟩
  | some j =>
    have hj := (h.owner j).mpr hmutex
    refine ⟨j, step_isSome ?_ fun f hf => ?_⟩
    · intro hout
      rw [hout] at hj
      cases hj
    · rw [hf] at hj
      cases hj

/-! ## Runs -/

/-- **The transmit path, from several tasks.** Whichever way the steps of the tasks that call
`can_send` and of the controller come, one task at a time is behind the mutex, and what it sees of
the free level still holds when it adds its message. So the run is one of `rjs_can_send` for one
frame after the other: every accepted message is once on the bus or in the controller's elements, in
order, and `s_tx_dropped` counts the refusals. As long as a task is in `can_send`, some task can go
on. Every task counts every result, and `tx_frames` and `tx_busy` never exceed what has been counted,
nor are they 0 once there was something to count. -/
theorem transmit_sound (events : List (TxEvent ι)) {s : TxPath ι}
    (h : run act start events = some s) :
    (∀ i j, (s.pc i).inside = true → (s.pc j).inside = true → i = j) ∧
    (∀ i f, s.pc i = .checked f → s.fifo.items.length < s.fifo.depth) ∧
    Serial ⟨s.txDropped.value, s.bus ++ s.fifo.items⟩ (s.results.map Prod.snd) ∧
    s.bus ++ s.fifo.items = Serial.accepted (s.results.map Prod.snd) ∧
    s.txDropped.value =
      UInt32.ofNat ((s.results.map Prod.snd).countP fun c => c.2 = .errBusy) ∧
    (∀ i, s.pc i ≠ .outside → ∃ j, (s.step j).isSome = true) ∧
    (∀ i, (own i s.results).map Prod.snd = own i s.counted ++ (s.pc i).pending) ∧
    ∀ ok, ∃ n ≤ s.added ok, (s.stat ok).value = UInt32.ofNat n ∧ (0 < s.added ok → 0 < n) := by
  have hs := sound_run sound_start h
  obtain ⟨hsent, hdropped⟩ := hs.serialized.port_eq
  refine ⟨fun i j => hs.owner.eq, hs.room, hs.serialized, hsent, hdropped, fun i => hs.progress,
    hs.counted, fun ok => ?_⟩
  obtain ⟨n, hn⟩ := hs.statCounts ok
  exact ⟨n, hn.le, hn.value, hn.pos⟩

def pingFrame : CanFrame := ⟨0x101, 8, true, true, Vector.replicate _ 0⟩

/-- One task has sent its frame and is about to count it; the other sends one and counts it before
the first stores its count. -/
def overtaken : List (TxEvent Bool) :=
  .call true pingFrame :: List.replicate 5 (.step true) ++
    .call false pingFrame :: List.replicate 6 (.step false) ++ [.transmit, .step true]

theorem transmit_sound_overtaken : ∃ s : TxPath Bool, run act start overtaken = some s ∧
    s.bus.length = 1 ∧ s.bus ++ s.fifo.items = Serial.accepted (s.results.map Prod.snd) :=
  ⟨_, rfl, rfl, (transmit_sound overtaken rfl).2.2.2.1⟩

end TxPath

end Rjs

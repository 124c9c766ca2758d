import RobotJointStack.Protocol.Codec

/-!
# Board.Fdcan

The CAN port of the board (`hal_can_fdcan.c`): what `rjs_can_send` checks and hands to the
controller, and how the receive interrupt builds a frame. The vendor HAL is not part of the
repository; the two answers of it that the send path depends on are parameters.
-/

namespace Rjs

/-- The fields of `FDCAN_TxHeaderTypeDef` that differ between frames. The others are constant:
standard identifier, data frame, active error state, no transmit event, marker 0. -/
structure TxHeader where
  identifier : UInt32
  dataLength : UInt32
  bitRateSwitch : Bool
  fdFormat : Bool
deriving DecidableEq, Repr

/-- `FDCAN_RxHeaderTypeDef`, as far as the receive callback reads it. -/
structure RxHeader where
  identifier : UInt32
  dataLength : UInt32
  bitRateSwitch : Bool
  fdFormat : Bool
deriving DecidableEq, Repr

/-- The HAL's answers: free transmit elements and whether the FIFO takes a message. -/
structure TxHardware where
  freeLevel : UInt32
  addMessage : TxHeader → Payload → Bool

/-- The port's drop counter and the messages handed to the controller. -/
structure CanPort where
  txDropped : UInt32
  sent : List (TxHeader × Payload)

def txHeader (f : CanFrame) : TxHeader where
  identifier := f.id.toUInt32
  dataLength := (fdLenToDlc f.len).toUInt32
  bitRateSwitch := f.fd && f.brs
  fdFormat := f.fd

/-- `rjs_can_send`. -/
def canSend (hw : TxHardware) (s : CanPort) (frame : Option CanFrame) : CanResult × CanPort :=
  match frame with
  | none => (.errParam, s)
  | some f =>
    if f.id > 0x7FF then (.errParam, s)
    else if fdLenToDlc f.len = 0xFF ∨ (¬f.fd ∧ f.len > 8) then (.errParam, s)
    else if hw.freeLevel = 0 then (.errBusy, { s with txDropped := s.txDropped + 1 })
    else if hw.addMessage (txHeader f) f.data then
      (.ok, { s with sent := s.sent ++ [(txHeader f, f.data)] })
    else (.errBusy, { s with txDropped := s.txDropped + 1 })

/-- One element of the receive FIFO. -/
structure RxMessage where
  header : RxHeader
  payload : Payload

/-- The HAL writes `n` bytes to the buffer and leaves the rest as it was. -/
def copyPayload (n : Nat) (src dst : Payload) : Payload :=
  Vector.ofFn fun i => if i.val < n then src[i] else dst[i]

/-- The frame `HAL_FDCAN_RxFifo0Callback` hands on for one message; `buf` is what earlier frames
left in its buffer. -/
def rxFrame (m : RxMessage) (buf : Payload) : CanFrame :=
  let len := fdDlcToLen m.header.dataLength.toUInt8
  { id := m.header.identifier.toUInt16
    len := if len = 0xFF then 0 else len
    fd := m.header.fdFormat
    brs := m.header.bitRateSwitch
    data := copyPayload len.toNat m.payload buf }

/-- What the bus owes a sent message: identifier, length code and as many bytes as it stands for
arrive unchanged. -/
structure Delivered (h : TxHeader) (data : Payload) (m : RxMessage) : Prop where
  identifier : m.header.identifier = h.identifier
  dataLength : m.header.dataLength = h.dataLength
  payload : ∀ k (hk : k < canMaxPayload), k < (fdDlcToLen h.dataLength.toUInt8).toNat →
    m.payload[k] = data[k]

theorem getElem_copyPayload {n k : Nat} {src dst : Payload} (hk : k < canMaxPayload) (h : k < n) :
    (copyPayload n src dst)[k] = src[k] := by
  simp [copyPayload, h]

/-- Lengths that are an exact CAN FD size, except that `0xFF` stands for none. -/
def FdSize (len : UInt8) : Prop :=
  fdLenToDlc len ≠ 0xFF ∧ fdDlcToLen (fdLenToDlc len) = len ∧ len ≠ 0xFF

instance : DecidablePred FdSize := fun len => by unfold FdSize; infer_instance

section Link

variable {f : CanFrame}

theorem canSend_ne_errParam (hid : f.id ≤ 0x7FF) (hlen : FdSize f.len) (hfd : f.fd)
    (hw : TxHardware) (s : CanPort) : (canSend hw s (some f)).1 ≠ .errParam := by
  have hcheck : ¬(fdLenToDlc f.len = 0xFF ∨ (¬f.fd ∧ f.len > 8)) := by
    rintro (h | ⟨h, -⟩)
    · exact hlen.1 h
    · exact h hfd
  simp only [canSend]
  rw [if_neg (UInt16.not_lt.mpr hid), if_neg hcheck]
  split
  · simp
  · split <;> simp

variable {m : RxMessage} {buf : Payload}

theorem rxFrame_id (h : Delivered (txHeader f) f.data m) : (rxFrame m buf).id = f.id := by
  simp only [rxFrame, h.identifier, txHeader]
  exact UInt16.toUInt16_toUInt32 f.id

theorem rxFrame_dlc (h : Delivered (txHeader f) f.data m) :
    m.header.dataLength.toUInt8 = fdLenToDlc f.len := by
  simp only [h.dataLength, txHeader]
  exact UInt8.toUInt8_toUInt32 _

theorem rxFrame_len (hlen : FdSize f.len) (h : Delivered (txHeader f) f.data m) :
    (rxFrame m buf).len = f.len := by
  simp only [rxFrame, rxFrame_dlc h, hlen.2.1]
  rw [if_neg hlen.2.2]

theorem rxFrame_data (hlen : FdSize f.len) (h : Delivered (txHeader f) f.data m) (k : Nat)
    (hk : k < canMaxPayload) (hkl : k < f.len.toNat) : (rxFrame m buf).data[k] = f.data[k] := by
  have hdlc : (txHeader f).dataLength.toUInt8 = fdLenToDlc f.len := UInt8.toUInt8_toUInt32 _
  simp only [rxFrame, rxFrame_dlc h, hlen.2.1]
  rw [getElem_copyPayload hk hkl, h.payload k hk (by rw [hdlc, hlen.2.1]; exact hkl)]

end Link

end Rjs

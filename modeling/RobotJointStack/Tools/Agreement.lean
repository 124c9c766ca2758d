import RobotJointStack.Protocol.RoundTrip
import RobotJointStack.Tools.Candump
import RobotJointStack.Tools.Mirror

/-!
# Tools.Agreement

The two implementations of the wire format, on one frame: the decoders of the nodes and the Python
mirror that reads it as a line of text.

* `unpack_of_nodeDecode`: what a node decodes, the mirror unpacks to the same integers.
* `kind_of_unpack`, `nodeDecode_of_kind`: what each of the two has checked.
* `mirror_agrees`: every accepted frame is printed, read and decoded alike.
-/

namespace Rjs

open Candump Mirror

/-! ## The decoders of a node -/

/-- What a decoder has let through. -/
def accepted {α : Type} : ProtoResult × Option α → Option α
  | (.ok, msg) => msg
  | _ => none

/-- The decoder of the frame's type. -/
def nodeDecode (f : CanFrame) : Option Message :=
  if idType f.id = MsgType.heartbeat.code then
    (accepted (decodeHeartbeat (some f) (some default))).map .heartbeat
  else if idType f.id = MsgType.command.code then
    (accepted (decodeCommand (some f) (some default))).map .command
  else if idType f.id = MsgType.jointState.code then
    (accepted (decodeJointState (some f) (some default))).map .jointState
  else if idType f.id = MsgType.emergency.code then
    (accepted (decodeEmergency (some f) (some default))).map .emergency
  else none

def Message.kind : Message → Kind
  | heartbeat _ => .heartbeat
  | command _ => .command
  | jointState _ => .jointState
  | emergency _ => .emergency

/-- The fields of a message as plain integers. -/
def Message.raw : Message → Raw
  | heartbeat hb =>
    .heartbeat hb.state.toNat hb.errorFlags.toNat hb.uptimeMs.toNat hb.fwMajor.toNat
      hb.fwMinor.toNat hb.fwPatch.toNat
  | command cmd =>
    .command cmd.mode.toNat cmd.targetMdeg.toInt cmd.maxVelocityMdegS.toInt cmd.sequence.toNat
  | jointState st =>
    .jointState st.mode.toNat st.positionMdeg.toInt st.velocityMdegS.toInt st.currentMa.toInt
      st.temperatureC10.toInt st.lastCommandSeq.toNat
  | emergency em => .emergency em.code.toNat em.detail.toNat

/-- The frame on the bus that an identifier and data bytes stand for. -/
structure Carries (f : CanFrame) (canId : Nat) (data : List UInt8) : Prop where
  id : f.id.toNat = canId
  len : f.len.toNat = data.length
  data : ∀ i (h : i < canMaxPayload), i < data.length → data[i]? = some f.data[i]

/-- A node takes the frame: its filter passes the identifier, and the decoder accepts it. The number
of the identifier is all there is to judge by; that a log writes extended identifiers with eight
digits is not visible in it. -/
def NodeAccepts (canId : Nat) (data : List UInt8) : Prop :=
  canId ≤ 0x7FF ∧ ∃ f, Carries f canId data ∧ (nodeDecode f).isSome

section Accepted

variable {α : Type} {type : MsgType} {len : UInt8} {read : Payload → Option α}

theorem accepted_decode {f : CanFrame} {o msg : α} :
    accepted (decode type len read (some f) (some o)) = some msg ↔
      frameCheck (some f) type len = .ok ∧ read f.data = some msg := by
  constructor
  · intro h
    refine decode_ok (o := o) ?_
    generalize decode type len read (some f) (some o) = r at h
    obtain ⟨res, m⟩ := r
    cases res with
    | ok => exact congrArg (Prod.mk _) h
    | _ => cases h
  · rintro ⟨hc, hr⟩
    rw [decode_of_ok hc hr]; rfl

/-- A decoder whose message is wrapped, on a frame of its type. -/
theorem accepted_map {f : CanFrame} {o : α} {wrap : α → Message} {m : Message}
    (hid : idType f.id = type.code) :
    (accepted (decode type len read (some f) (some o))).map wrap = some m ↔
      f.data[0] = Rjs.protocolVersion ∧ f.len.toNat ≤ 64 ∧ len.toNat ≤ f.len.toNat ∧
        (read f.data).map wrap = some m := by
  simp only [Option.map_eq_some_iff, accepted_decode, frameCheck_ok_iff]
  constructor
  · rintro ⟨msg, ⟨⟨-, ⟨hlo, hhi⟩, hver⟩, hread⟩, rfl⟩
    exact ⟨hver, hhi, hlo, msg, hread, rfl⟩
  · rintro ⟨hver, hhi, hlo, msg, hread, rfl⟩
    exact ⟨msg, ⟨⟨hid, ⟨hlo, hhi⟩, hver⟩, hread⟩, rfl⟩

end Accepted

/-! ## The layouts -/

namespace Mirror

/-- The message type of a kind, to the mirror and to the nodes. -/
def Kind.msg : Kind → Nat
  | heartbeat => msgHeartbeat
  | command => msgCommand
  | jointState => msgJointState
  | emergency => msgEmergency

def Kind.type : Kind → MsgType
  | heartbeat => .heartbeat
  | command => .command
  | jointState => .jointState
  | emergency => .emergency

def Kind.minLen : Kind → Nat
  | heartbeat | command => 12
  | jointState => 16
  | emergency => 8

theorem Kind.minLen_pos (kind : Kind) : 0 < kind.minLen := by
  cases kind <;> decide

end Mirror

/-- The message that a payload holds, where the nodes accept it. -/
def readKind (p : Payload) : Kind → Option Message
  | .heartbeat => (readHeartbeat p).map .heartbeat
  | .command => (readCommand p).map .command
  | .jointState => (readJointState p).map .jointState
  | .emergency => (readEmergency p).map .emergency

/-! ## Both decoders on one frame -/

section Frame

variable {f : CanFrame} {canId : Nat} {data : List UInt8} {kind : Kind}

theorem splitId_toNat (id : UInt16) :
    splitId id.toNat = ((idType id).toNat, (idNode id).toNat) := by
  have hnode : (id &&& 0x7F).toNat % 2 ^ 8 = id.toNat &&& 0x7F := by
    rw [UInt16.toNat_and]
    exact Nat.mod_eq_of_lt (Nat.lt_of_le_of_lt Nat.and_le_right (by decide))
  rw [splitId, idType, idNode, UInt16.toNat_toUInt8, hnode, UInt16.toNat_and,
    UInt16.toNat_shiftRight]
  rfl

theorem idType_eq_iff (id : UInt16) :
    idType id = kind.type.code ↔ (splitId id.toNat).1 = kind.msg := by
  rw [splitId_toNat, ← UInt16.toNat_inj]
  cases kind <;> rfl

theorem Carries.drop (h : Carries f canId data) (i j : Nat) (hj : i + 1 = j)
    (hi : i < canMaxPayload) (hlen : i < data.length) : data.drop i = f.data[i] :: data.drop j := by
  have hget := h.data i hi hlen
  rw [List.getElem?_eq_getElem hlen] at hget
  rw [List.drop_eq_getElem_cons hlen, Option.some.inj hget, hj]

/-- Four bytes of the frame at once. -/
theorem Carries.drop_four (h : Carries f canId data) (i j : Nat) (hj : i + 4 = j)
    (hi : i + 3 < canMaxPayload) (hlen : j ≤ data.length) :
    data.drop i =
      f.data[i] :: f.data[i + 1] :: f.data[i + 2] :: f.data[i + 3] :: data.drop j := by
  rw [h.drop i (i + 1) rfl (by omega) (by omega), h.drop (i + 1) (i + 2) rfl (by omega) (by omega),
    h.drop (i + 2) (i + 3) rfl (by omega) (by omega), h.drop (i + 3) j hj hi (by omega)]

theorem Carries.head (h : Carries f canId data) (hlen : 0 < data.length) :
    data.head? = some f.data[0] := by
  rw [List.head?_eq_getElem?]
  exact h.data 0 (by decide) hlen

/-! One lemma a layout: the bytes are taken off one by one and put together to fields. -/

theorem unpackFrom_heartbeat (h : Carries f canId data) (hlen : 12 ≤ data.length) :
    Struct.unpackFrom [.u8, .u16, .u32, .u8, .u8, .u8] data 1 =
      some [(f.data[1].toNat : Int), ((getU16 f.data 2 (by decide)).toNat : Int),
        ((getU32 f.data 4 (by decide)).toNat : Int), (f.data[8].toNat : Int),
        (f.data[9].toNat : Int), (f.data[10].toNat : Int)] := by
  rw [Struct.unpackFrom, h.drop_four 1 5 rfl (by decide) (by omega),
    h.drop_four 5 9 rfl (by decide) (by omega), h.drop 9 10 rfl (by decide) (by omega),
    h.drop 10 11 rfl (by decide) (by omega)]
  simp only [Struct.unpack_u8, Struct.unpack_u16, Struct.unpack_u32, Struct.unpack_nil,
    Option.map_some]
  rfl

theorem unpackFrom_command (h : Carries f canId data) (hlen : 12 ≤ data.length) :
    Struct.unpackFrom [.u8, .i32, .i32, .u16] data 1 =
      some [(f.data[1].toNat : Int), (getU32 f.data 2 (by decide)).toInt32.toInt,
        (getU32 f.data 6 (by decide)).toInt32.toInt,
        ((getU16 f.data 10 (by decide)).toNat : Int)] := by
  rw [Struct.unpackFrom, h.drop_four 1 5 rfl (by decide) (by omega),
    h.drop_four 5 9 rfl (by decide) (by omega), h.drop 9 10 rfl (by decide) (by omega),
    h.drop 10 11 rfl (by decide) (by omega), h.drop 11 12 rfl (by decide) (by omega)]
  simp only [Struct.unpack_u8, Struct.unpack_u16, Struct.unpack_i32, Struct.unpack_nil,
    Option.map_some]
  rfl

theorem unpackFrom_jointState (h : Carries f canId data) (hlen : 16 ≤ data.length) :
    Struct.unpackFrom [.u8, .i32, .i32, .i16, .i16, .u16] data 1 =
      some [(f.data[1].toNat : Int), (getU32 f.data 2 (by decide)).toInt32.toInt,
        (getU32 f.data 6 (by decide)).toInt32.toInt, (getU16 f.data 10 (by decide)).toInt16.toInt,
        (getU16 f.data 12 (by decide)).toInt16.toInt,
        ((getU16 f.data 14 (by decide)).toNat : Int)] := by
  rw [Struct.unpackFrom, h.drop_four 1 5 rfl (by decide) (by omega),
    h.drop_four 5 9 rfl (by decide) (by omega), h.drop_four 9 13 rfl (by decide) (by omega),
    h.drop 13 14 rfl (by decide) (by omega), h.drop 14 15 rfl (by decide) (by omega),
    h.drop 15 16 rfl (by decide) (by omega)]
  simp only [Struct.unpack_u8, Struct.unpack_u16, Struct.unpack_i16, Struct.unpack_i32,
    Struct.unpack_nil, Option.map_some]
  rfl

theorem unpackFrom_emergency (h : Carries f canId data) (hlen : 8 ≤ data.length) :
    Struct.unpackFrom [.u16, .u32] data 2 =
      some [((getU16 f.data 2 (by decide)).toNat : Int),
        ((getU32 f.data 4 (by decide)).toNat : Int)] := by
  rw [Struct.unpackFrom, h.drop_four 2 6 rfl (by decide) (by omega),
    h.drop 6 7 rfl (by decide) (by omega), h.drop 7 8 rfl (by decide) (by omega)]
  simp only [Struct.unpack_u16, Struct.unpack_u32, Struct.unpack_nil, Option.map_some]
  rfl

/-- The mirror on a frame of a known kind, of its version and long enough. -/
theorem unpack_of_kind (h : Carries f canId data) {m : Message}
    (hkind : (splitId canId).1 = kind.msg) (hver : data.head? = some Mirror.protocolVersion)
    (hlen : kind.minLen ≤ data.length) (hread : readKind f.data kind = some m) :
    unpackMessage canId data = .ok (some ((splitId canId).2, m.raw)) := by
  have hgood : ¬(data.length < 1 ∨ data.head? ≠ some Mirror.protocolVersion) := by
    rintro (hshort | hne)
    · have hpos := kind.minLen_pos
      omega
    · exact hne hver
  rw [unpackMessage]
  generalize splitId canId = id at hkind ⊢
  obtain ⟨msgType, node⟩ := id
  obtain rfl : msgType = kind.msg := hkind
  dsimp only
  rw [if_neg hgood]
  cases kind with
  | heartbeat =>
    have hlen' : 12 ≤ data.length := hlen
    cases hread
    rw [if_pos (show Kind.heartbeat.msg = msgHeartbeat from rfl),
      if_neg (Nat.not_lt.mpr hlen'), unpackFrom_heartbeat h hlen']
    rfl
  | command =>
    have hlen' : 12 ≤ data.length := hlen
    simp only [readKind, readCommand] at hread
    split at hread
    · cases hread
    · cases hread
      rw [if_neg (by decide), if_pos (show Kind.command.msg = msgCommand from rfl),
        if_neg (Nat.not_lt.mpr hlen'), unpackFrom_command h hlen']
      rfl
  | jointState =>
    have hlen' : 16 ≤ data.length := hlen
    cases hread
    rw [if_neg (by decide), if_neg (by decide),
      if_pos (show Kind.jointState.msg = msgJointState from rfl), if_neg (Nat.not_lt.mpr hlen'),
      unpackFrom_jointState h hlen']
    rfl
  | emergency =>
    have hlen' : 8 ≤ data.length := hlen
    cases hread
    rw [if_neg (by decide), if_neg (by decide), if_neg (by decide),
      if_pos (show Kind.emergency.msg = msgEmergency from rfl), if_neg (Nat.not_lt.mpr hlen'),
      unpackFrom_emergency h hlen']
    rfl

/-- What the mirror has checked of a frame that it decodes. -/
theorem kind_of_unpack {r : Nat × Raw} (h : unpackMessage canId data = .ok (some r)) :
    data.head? = some Mirror.protocolVersion ∧
      ∃ kind : Kind, (splitId canId).1 = kind.msg ∧ kind.minLen ≤ data.length := by
  rw [unpackMessage] at h
  generalize splitId canId = id at h ⊢
  obtain ⟨msgType, node⟩ := id
  dsimp only at h
  split at h
  · cases h
  · rename_i hgood
    rw [not_or, not_not] at hgood
    refine ⟨hgood.2, ?_⟩
    split at h
    · rename_i hkind
      split at h
      · cases h
      · rename_i hlen
        exact ⟨.heartbeat, hkind, Nat.not_lt.mp hlen⟩
    · split at h
      · rename_i hkind
        split at h
        · cases h
        · rename_i hlen
          exact ⟨.command, hkind, Nat.not_lt.mp hlen⟩
      · split at h
        · rename_i hkind
          split at h
          · cases h
          · rename_i hlen
            exact ⟨.jointState, hkind, Nat.not_lt.mp hlen⟩
        · split at h
          · rename_i hkind
            split at h
            · cases h
            · rename_i hlen
              exact ⟨.emergency, hkind, Nat.not_lt.mp hlen⟩
          · cases h

/-- The nodes on a frame of a known kind. -/
theorem nodeDecode_of_kind {m : Message} (hid : idType f.id = kind.type.code) :
    nodeDecode f = some m ↔
      f.data[0] = Rjs.protocolVersion ∧ f.len.toNat ≤ 64 ∧ kind.minLen ≤ f.len.toNat ∧
        readKind f.data kind = some m := by
  unfold nodeDecode
  cases kind with
  | heartbeat =>
    replace hid : idType f.id = MsgType.heartbeat.code := hid
    rw [if_pos hid]
    exact accepted_map hid
  | command =>
    replace hid : idType f.id = MsgType.command.code := hid
    rw [if_neg (by rw [hid]; decide), if_pos hid]
    exact accepted_map hid
  | jointState =>
    replace hid : idType f.id = MsgType.jointState.code := hid
    rw [if_neg (by rw [hid]; decide), if_neg (by rw [hid]; decide), if_pos hid]
    exact accepted_map hid
  | emergency =>
    replace hid : idType f.id = MsgType.emergency.code := hid
    rw [if_neg (by rw [hid]; decide), if_neg (by rw [hid]; decide), if_neg (by rw [hid]; decide),
      if_pos hid]
    exact accepted_map hid

theorem kind_of_nodeDecode (h : (nodeDecode f).isSome) :
    ∃ kind : Kind, idType f.id = kind.type.code := by
  unfold nodeDecode at h
  split at h
  · rename_i hid
    exact ⟨.heartbeat, hid⟩
  · split at h
    · rename_i hid
      exact ⟨.command, hid⟩
    · split at h
      · rename_i hid
        exact ⟨.jointState, hid⟩
      · split at h
        · rename_i hid
          exact ⟨.emergency, hid⟩
        · cases h

/-- What a node decodes, the mirror unpacks to the same integers. -/
theorem unpack_of_nodeDecode (h : Carries f canId data) {m : Message}
    (hm : nodeDecode f = some m) :
    unpackMessage canId data = .ok (some ((idNode f.id).toNat, m.raw)) := by
  obtain ⟨kind, hid⟩ := kind_of_nodeDecode (f := f) (by rw [hm]; rfl)
  obtain ⟨hver, -, hlen, hread⟩ := (nodeDecode_of_kind hid).mp hm
  have hkind := (idType_eq_iff f.id).mp hid
  rw [h.id] at hkind
  rw [h.len] at hlen
  have hpos : 0 < data.length := Nat.lt_of_lt_of_le kind.minLen_pos hlen
  have hhead : data.head? = some Mirror.protocolVersion := by rw [h.head hpos, hver]; rfl
  rw [unpack_of_kind h hkind hhead hlen hread, ← h.id, splitId_toNat]

end Frame

/-! ## Through the text -/

/-- A printed line carries the frame. -/
theorem carries_take {f : CanFrame} (hlen : f.len.toNat ≤ 64) :
    Carries f f.id.toNat (f.data.toList.take f.len.toNat) where
  id := rfl
  len := by
    rw [List.length_take, Vector.length_toList]
    exact (Nat.min_eq_left hlen).symm
  data i hi hlt := by
    rw [List.length_take, Nat.lt_min] at hlt
    rw [List.getElem?_take_of_lt hlt.1, Vector.getElem?_toList, Vector.getElem?_eq_getElem hi]

/-- A node's decoder and the mirror agree on every accepted frame, printed as a line and read
back: the same kind, the same node and the same integers. -/
theorem mirror_agrees {f : CanFrame} {m : Message} (h : nodeDecode f = some m) :
    ∃ ts data d, parseCandumpLine (printFrame f) = .ok (some (ts, f.id.toNat, data)) ∧
      unpackMessage f.id.toNat data = .ok (some ((idNode f.id).toNat, m.raw)) ∧
      Mirror.decode f.id.toNat data = .ok (some d) ∧ d.kind = m.kind ∧
      d.node = (idNode f.id).toNat := by
  obtain ⟨kind, hid⟩ := kind_of_nodeDecode (f := f) (by rw [h]; rfl)
  obtain ⟨-, hlen, -, -⟩ := (nodeDecode_of_kind hid).mp h
  have hunpack := unpack_of_nodeDecode (carries_take hlen) h
  refine ⟨_, _, m.raw.decoded (idNode f.id).toNat, parse_printFrame f, hunpack, ?_, ?_, rfl⟩
  · rw [Mirror.decode, hunpack]; rfl
  · cases m <;> rfl

/-- Node 5 is told to move to -90 degrees. -/
def sampleFrame : CanFrame where
  id := makeId .command 5
  len := commandLen
  fd := true
  brs := true
  data := writeCommand ⟨1, -90000, 90000, 77⟩ ((Vector.replicate 64 0).set 0 1)

theorem mirror_agrees_sample :
    ∃ ts data d, parseCandumpLine (printFrame sampleFrame) = .ok (some (ts, 0x085, data)) ∧
      unpackMessage 0x085 data = .ok (some (5, .command 1 (-90000) 90000 77)) ∧
      Mirror.decode 0x085 data = .ok (some d) ∧ d.kind = .command ∧ d.node = 5 :=
  mirror_agrees (f := sampleFrame) (m := .command ⟨1, -90000, 90000, 77⟩) (by decide +kernel)

end Rjs

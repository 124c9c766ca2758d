import RobotJointStack.Lib.Bytes
import RobotJointStack.Protocol.Codec

/-!
# Protocol.RoundTrip

Encoding followed by decoding, for the four messages.

* `read*_write*`: reading a payload gives back the message written to it.
* `read*_congr`: a reader looks at the first `len` bytes only, so what a receive buffer holds
  beyond the transmitted bytes does not matter.
* `decode_encode`: a frame whose identifier, length and first `len` bytes are an encoder's is
  decoded to the encoded message; `decode_errType`: every other decoder refuses it.
* `decoderAccepts_iff`: which commands the decoder lets through.
-/

namespace Rjs

open Bytes

/-! ## Words in a payload -/

section Words

variable (p : Payload) (i k : Nat)

theorem getU16_putU16 (h : i + 1 < canMaxPayload) (v : UInt16) :
    getU16 (putU16 p i h v) i h = v := by
  simp only [getU16, putU16, Vector.getElem_set, if_true, if_neg (show ¬i + 1 = i by omega)]
  exact join16_split v

theorem getU32_putU32 (h : i + 3 < canMaxPayload) (v : UInt32) :
    getU32 (putU32 p i h v) i h = v := by
  simp only [getU32, putU32, Vector.getElem_set, if_true, if_neg (show ¬i + 1 = i by omega),
    if_neg (show ¬i + 2 = i by omega), if_neg (show ¬i + 3 = i by omega),
    if_neg (show ¬i + 2 = i + 1 by omega), if_neg (show ¬i + 3 = i + 1 by omega),
    if_neg (show ¬i + 3 = i + 2 by omega)]
  exact join32_split v

theorem getElem_putU16 (h : i + 1 < canMaxPayload) (v : UInt16) (hk : k < canMaxPayload)
    (hne : k < i ∨ i + 2 ≤ k) : (putU16 p i h v)[k] = p[k] := by
  simp only [putU16, Vector.getElem_set]
  rw [if_neg (by omega), if_neg (by omega)]

theorem getElem_putU32 (h : i + 3 < canMaxPayload) (v : UInt32) (hk : k < canMaxPayload)
    (hne : k < i ∨ i + 4 ≤ k) : (putU32 p i h v)[k] = p[k] := by
  simp only [putU32, Vector.getElem_set]
  rw [if_neg (by omega), if_neg (by omega), if_neg (by omega), if_neg (by omega)]

variable {p i} {q : Payload}

/-- Two payloads that agree on the bytes of a word hold the same word. -/
theorem getU16_congr (h : i + 1 < canMaxPayload)
    (hpq : ∀ k (hk : k < canMaxPayload), i ≤ k → k < i + 2 → p[k] = q[k]) :
    getU16 p i h = getU16 q i h := by
  rw [getU16, getU16, hpq i (by omega) (by omega) (by omega), hpq (i + 1) h (by omega) (by omega)]

theorem getU32_congr (h : i + 3 < canMaxPayload)
    (hpq : ∀ k (hk : k < canMaxPayload), i ≤ k → k < i + 4 → p[k] = q[k]) :
    getU32 p i h = getU32 q i h := by
  rw [getU32, getU32, hpq i (by omega) (by omega) (by omega),
    hpq (i + 1) (by omega) (by omega) (by omega), hpq (i + 2) (by omega) (by omega) (by omega),
    hpq (i + 3) h (by omega) (by omega)]

end Words

/-! ## Reading back what was written -/

section Layout

variable {p : Payload} {i j : Nat}

theorem getU16_set_ne (h : i + 1 < canMaxPayload) (hj : j < canMaxPayload) (x : UInt8)
    (hne : j < i ∨ i + 2 ≤ j) : getU16 (p.set j x) i h = getU16 p i h :=
  getU16_congr h fun k hk _ _ => by rw [Vector.getElem_set_ne _ _ (by omega)]

theorem getU32_set_ne (h : i + 3 < canMaxPayload) (hj : j < canMaxPayload) (x : UInt8)
    (hne : j < i ∨ i + 4 ≤ j) : getU32 (p.set j x) i h = getU32 p i h :=
  getU32_congr h fun k hk _ _ => by rw [Vector.getElem_set_ne _ _ (by omega)]

theorem getU16_putU16_ne (h : i + 1 < canMaxPayload) (hj : j + 1 < canMaxPayload) (v : UInt16)
    (hne : j + 2 ≤ i ∨ i + 2 ≤ j) : getU16 (putU16 p j hj v) i h = getU16 p i h :=
  getU16_congr h fun k hk _ _ => getElem_putU16 p j k hj v hk (by omega)

theorem getU16_putU32_ne (h : i + 1 < canMaxPayload) (hj : j + 3 < canMaxPayload) (v : UInt32)
    (hne : j + 4 ≤ i ∨ i + 2 ≤ j) : getU16 (putU32 p j hj v) i h = getU16 p i h :=
  getU16_congr h fun k hk _ _ => getElem_putU32 p j k hj v hk (by omega)

theorem getU32_putU16_ne (h : i + 3 < canMaxPayload) (hj : j + 1 < canMaxPayload) (v : UInt16)
    (hne : j + 2 ≤ i ∨ i + 4 ≤ j) : getU32 (putU16 p j hj v) i h = getU32 p i h :=
  getU32_congr h fun k hk _ _ => getElem_putU16 p j k hj v hk (by omega)

theorem getU32_putU32_ne (h : i + 3 < canMaxPayload) (hj : j + 3 < canMaxPayload) (v : UInt32)
    (hne : j + 4 ≤ i ∨ i + 4 ≤ j) : getU32 (putU32 p j hj v) i h = getU32 p i h :=
  getU32_congr h fun k hk _ _ => getElem_putU32 p j k hj v hk (by omega)

end Layout

theorem readHeartbeat_writeHeartbeat (hb : Heartbeat) (p : Payload) :
    readHeartbeat (writeHeartbeat hb p) = some hb := by
  simp (disch := omega) only [readHeartbeat, writeHeartbeat, getU16_set_ne, getU32_set_ne,
    getU16_putU32_ne, getU16_putU16, getU32_putU32, getElem_putU32, getElem_putU16,
    Vector.getElem_set_ne, Vector.getElem_set_self]

theorem readCommand_writeCommand {node : UInt8} {cmd : Command} (h : commandValid node cmd)
    (p : Payload) : readCommand (writeCommand cmd p) = some cmd := by
  simp only [commandValid, Bool.and_eq_true, decide_eq_true_eq, Bool.not_eq_true',
    Bool.and_eq_false_imp, beq_iff_eq, decide_eq_false_iff_not] at h
  obtain ⟨⟨-, hmode⟩, hvel⟩ := h
  have hok : ¬(cmd.mode > JointMode.position.code ∨
      (cmd.mode = JointMode.position.code ∧ cmd.maxVelocityMdegS ≤ 0)) := by
    rintro (hgt | ⟨hm, hle⟩)
    · exact UInt8.not_lt.mpr hmode hgt
    · exact hvel hm hle
  simp (disch := omega) only [readCommand, writeCommand, getU16_putU16, getU32_putU16_ne,
    getU32_putU32_ne, getU32_putU32, getElem_putU32, getElem_putU16, Vector.getElem_set_self,
    Int32.toInt32_toUInt32]
  rw [if_neg hok]

theorem readJointState_writeJointState (st : JointState) (p : Payload) :
    readJointState (writeJointState st p) = some st := by
  simp (disch := omega) only [readJointState, writeJointState, getU16_putU16, getU16_putU16_ne,
    getU32_putU16_ne, getU32_putU32_ne, getU32_putU32, getElem_putU32, getElem_putU16,
    Vector.getElem_set_self, Int32.toInt32_toUInt32, Int16.toInt16_toUInt16]

theorem readEmergency_writeEmergency (em : Emergency) (p : Payload) :
    readEmergency (writeEmergency em p) = some em := by
  simp (disch := omega) only [readEmergency, writeEmergency, getU16_putU16, getU16_putU32_ne,
    getU32_putU32]

/-! ## Bytes beyond the message do not matter -/

section Congr

variable {p q : Payload}

theorem readHeartbeat_congr (h : ∀ k (hk : k < canMaxPayload), k < 12 → p[k] = q[k]) :
    readHeartbeat p = readHeartbeat q := by
  simp only [readHeartbeat, h 1 (by decide) (by omega), h 8 (by decide) (by omega),
    h 9 (by decide) (by omega), h 10 (by decide) (by omega)]
  rw [getU16_congr (by decide) fun k hk _ _ => h k hk (by omega),
    getU32_congr (by decide) fun k hk _ _ => h k hk (by omega)]

theorem readCommand_congr (h : ∀ k (hk : k < canMaxPayload), k < 12 → p[k] = q[k]) :
    readCommand p = readCommand q := by
  have h2 : getU32 p 2 (by decide) = getU32 q 2 (by decide) :=
    getU32_congr _ fun k hk _ _ => h k hk (by omega)
  have h6 : getU32 p 6 (by decide) = getU32 q 6 (by decide) :=
    getU32_congr _ fun k hk _ _ => h k hk (by omega)
  have h10 : getU16 p 10 (by decide) = getU16 q 10 (by decide) :=
    getU16_congr _ fun k hk _ _ => h k hk (by omega)
  simp only [readCommand, h 1 (by decide) (by omega), h2, h6, h10]

theorem readJointState_congr (h : ∀ k (hk : k < canMaxPayload), k < 16 → p[k] = q[k]) :
    readJointState p = readJointState q := by
  have h2 : getU32 p 2 (by decide) = getU32 q 2 (by decide) :=
    getU32_congr _ fun k hk _ _ => h k hk (by omega)
  have h6 : getU32 p 6 (by decide) = getU32 q 6 (by decide) :=
    getU32_congr _ fun k hk _ _ => h k hk (by omega)
  have h10 : getU16 p 10 (by decide) = getU16 q 10 (by decide) :=
    getU16_congr _ fun k hk _ _ => h k hk (by omega)
  have h12 : getU16 p 12 (by decide) = getU16 q 12 (by decide) :=
    getU16_congr _ fun k hk _ _ => h k hk (by omega)
  have h14 : getU16 p 14 (by decide) = getU16 q 14 (by decide) :=
    getU16_congr _ fun k hk _ _ => h k hk (by omega)
  simp only [readJointState, h 1 (by decide) (by omega), h2, h6, h10, h12, h14]

theorem readEmergency_congr (h : ∀ k (hk : k < canMaxPayload), k < 8 → p[k] = q[k]) :
    readEmergency p = readEmergency q := by
  have h2 : getU16 p 2 (by decide) = getU16 q 2 (by decide) :=
    getU16_congr _ fun k hk _ _ => h k hk (by omega)
  have h4 : getU32 p 4 (by decide) = getU32 q 4 (by decide) :=
    getU32_congr _ fun k hk _ _ => h k hk (by omega)
  simp only [readEmergency, h2, h4]

end Congr

/-! ## Identifiers -/

theorem toNat_makeId (type : MsgType) (node : UInt8) :
    (makeId type node).toNat = type.code.toNat * 128 + node.toNat % 128 := by
  have hnode : (node.toUInt16 &&& 0x7F).toNat = node.toNat % 128 := by
    rw [UInt16.toNat_and, UInt8.toNat_toUInt16]
    exact Nat.and_two_pow_sub_one_eq_mod node.toNat 7
  have htype : ((type.code &&& 0x0F) <<< 7).toNat = type.code.toNat <<< 7 := by
    cases type <;> rfl
  rw [makeId, UInt16.toNat_or, hnode, htype, Nat.or_comm, or_shiftLeft (by omega)]
  rfl

theorem idType_makeId (type : MsgType) (node : UInt8) : idType (makeId type node) = type.code := by
  have hlt : type.code.toNat < 16 := by cases type <;> decide
  apply UInt16.toNat_inj.mp
  have hand : ∀ x : UInt16, (x &&& 0x0F).toNat = x.toNat % 16 := by
    intro x
    rw [UInt16.toNat_and]; exact Nat.and_two_pow_sub_one_eq_mod x.toNat 4
  rw [idType, hand]
  simp only [UInt16.toNat_shiftRight, Nat.shiftRight_eq_div_pow, UInt16.reduceToNat, Nat.reduceMod,
    toNat_makeId]
  omega

theorem idNode_makeId (type : MsgType) {node : UInt8} (h : node ≤ nodeIdMax) :
    idNode (makeId type node) = node := by
  have hle : node.toNat ≤ 127 := UInt8.le_iff_toNat_le.mp h
  apply UInt8.toNat_inj.mp
  have hand : ∀ x : UInt16, (x &&& 0x7F).toNat = x.toNat % 128 := by
    intro x
    rw [UInt16.toNat_and]; exact Nat.and_two_pow_sub_one_eq_mod x.toNat 7
  rw [idNode, UInt16.toNat_toUInt8, hand, toNat_makeId]
  omega

/-- Identifiers have eleven bits. -/
theorem makeId_le (type : MsgType) (node : UInt8) : makeId type node ≤ 0x7FF := by
  have hlt : type.code.toNat < 16 := by cases type <;> decide
  rw [UInt16.le_iff_toNat_le, toNat_makeId]
  show _ ≤ 2047
  omega

theorem MsgType.code_inj {t t' : MsgType} : t.code = t'.code ↔ t = t' := by
  cases t <;> cases t' <;> decide

/-! ## Frames -/

/-- What a message's writer, reader and checks owe each other. -/
structure CodecLaws {α : Type} (len : UInt8) (valid : UInt8 → α → Bool)
    (write : α → Payload → Payload) (read : Payload → Option α) : Prop where
  nonempty : 0 < len.toNat
  fits : len.toNat ≤ canMaxPayload
  node_le : ∀ {node msg}, valid node msg → node ≤ nodeIdMax
  version : ∀ msg p, (write msg p)[0] = p[0]
  roundTrip : ∀ {node msg}, valid node msg → ∀ p, read (write msg p) = some msg
  congr : ∀ {p q}, (∀ k (hk : k < canMaxPayload), k < len.toNat → p[k] = q[k]) → read p = read q

theorem nodeValid_le {node : UInt8} (h : nodeValid node) : node ≤ nodeIdMax := by
  simp only [nodeValid, Bool.and_eq_true, decide_eq_true_eq] at h
  exact h.2

theorem heartbeat_laws : CodecLaws heartbeatLen heartbeatValid writeHeartbeat readHeartbeat where
  nonempty := by decide
  fits := by decide
  node_le h := by simp only [heartbeatValid, Bool.and_eq_true] at h; exact nodeValid_le h.1
  version hb p := by
    simp (disch := omega) only [writeHeartbeat, Vector.getElem_set_ne, getElem_putU32,
      getElem_putU16]
  roundTrip _ p := readHeartbeat_writeHeartbeat _ p
  congr := readHeartbeat_congr

theorem command_laws : CodecLaws commandLen commandValid writeCommand readCommand where
  nonempty := by decide
  fits := by decide
  node_le h := by
    simp only [commandValid, Bool.and_eq_true, decide_eq_true_eq] at h
    exact h.1.1
  version cmd p := by
    simp (disch := omega) only [writeCommand, Vector.getElem_set_ne, getElem_putU32, getElem_putU16]
  roundTrip h p := readCommand_writeCommand h p
  congr := readCommand_congr

theorem jointState_laws :
    CodecLaws jointStateLen jointStateValid writeJointState readJointState where
  nonempty := by decide
  fits := by decide
  node_le h := nodeValid_le h
  version st p := by
    simp (disch := omega) only [writeJointState, Vector.getElem_set_ne, getElem_putU32,
      getElem_putU16]
  roundTrip _ p := readJointState_writeJointState _ p
  congr := readJointState_congr

theorem emergency_laws : CodecLaws emergencyLen emergencyValid writeEmergency readEmergency where
  nonempty := by decide
  fits := by decide
  node_le h := nodeValid_le h
  version em p := by
    simp (disch := omega) only [writeEmergency, getElem_putU32, getElem_putU16]
  roundTrip _ p := readEmergency_writeEmergency _ p
  congr := readEmergency_congr

section Frames

variable {α : Type} {type : MsgType} {len : UInt8} {valid : UInt8 → α → Bool}
  {write : α → Payload → Payload} {read : Payload → Option α}

/-- The encoder accepts exactly the valid messages and then fills the whole frame. -/
theorem encode_eq_ok {node : UInt8} {msg : α} {out f : CanFrame} :
    encode type len valid write node (some msg) (some out) = (.ok, some f) ↔
      valid node msg ∧
        f = ⟨makeId type node, len, true, true, write msg (frameStart type node len).data⟩ := by
  simp only [encode]
  split
  · rename_i h
    simp only [Prod.mk.injEq, true_and, Option.some.injEq, h]
    exact eq_comm
  · rename_i h
    simp [h]

theorem frameCheck_ok {f : CanFrame} (hid : idType f.id = type.code) (hlo : len ≤ f.len)
    (hhi : f.len ≤ 64) (hver : f.data[0] = protocolVersion) :
    frameCheck (some f) type len = .ok := by
  have hlen : ¬(f.len < len ∨ f.len > UInt8.ofNat canMaxPayload) := by
    rintro (h | h)
    · exact UInt8.not_lt.mpr hlo h
    · exact UInt8.not_lt.mpr hhi h
  simp only [frameCheck]
  rw [if_neg (by simp [hid]), if_neg hlen, if_neg (by simp [hver])]

theorem frameCheck_ok_iff {f : CanFrame} : frameCheck (some f) type len = .ok ↔
    idType f.id = type.code ∧ (len.toNat ≤ f.len.toNat ∧ f.len.toNat ≤ 64) ∧
      f.data[0] = protocolVersion := by
  constructor
  · intro h
    simp only [frameCheck] at h
    split at h
    · cases h
    · split at h
      · cases h
      · split at h
        · cases h
        · rename_i hid hlen hver
          rw [not_or, UInt8.not_lt, UInt8.not_lt] at hlen
          exact ⟨not_not.mp hid, hlen, not_not.mp hver⟩
  · rintro ⟨hid, ⟨hlo, hhi⟩, hver⟩
    exact frameCheck_ok hid hlo hhi hver

theorem decode_of_ok {f : CanFrame} {o msg : α} (hc : frameCheck (some f) type len = .ok)
    (hr : read f.data = some msg) : decode type len read (some f) (some o) = (.ok, some msg) := by
  simp only [decode, hc, hr]

/-- A decoder refuses every frame of another type. -/
theorem decode_errType {f : CanFrame} {o : α} (h : idType f.id ≠ type.code) :
    decode type len read (some f) (some o) = (.errType, some o) := by
  have hc : frameCheck (some f) type len = .errType := by simp only [frameCheck]; rw [if_pos h]
  simp only [decode, hc]

/-- Any frame with the identifier, the length and the first `len` bytes of an encoded one is
decoded to the encoded message. -/
theorem decode_encode (laws : CodecLaws len valid write read) {node : UInt8} {msg : α}
    {out f : CanFrame}
    (h : encode type len valid write node (some msg) (some out) = (.ok, some f)) {g : CanFrame}
    (hid : g.id = f.id) (hlen : g.len = f.len)
    (hdata : ∀ k (hk : k < canMaxPayload), k < f.len.toNat → g.data[k] = f.data[k]) (o : α) :
    decode type len read (some g) (some o) = (.ok, some msg) := by
  obtain ⟨hv, rfl⟩ := encode_eq_ok.mp h
  have hgl : g.len = len := hlen
  have hcheck : frameCheck (some g) type len = .ok := by
    refine frameCheck_ok ?_ (hgl ▸ UInt8.le_refl _) ?_ ?_
    · rw [hid]; exact idType_makeId type node
    · rw [hgl, UInt8.le_iff_toNat_le]; exact laws.fits
    · rw [hdata 0 (by decide) laws.nonempty]
      show (write msg (frameStart type node len).data)[0] = protocolVersion
      rw [laws.version]
      exact Vector.getElem_set_self _
  refine decode_of_ok hcheck ?_
  rw [laws.congr hdata]
  exact laws.roundTrip hv _

end Frames

/-! ## Accepted commands -/

/-- Some frame, whatever its bytes, is decoded to this command. -/
def DecoderAccepts (cmd : Command) : Prop :=
  ∃ f o, decodeCommand (some f) (some o) = (.ok, some cmd)

theorem readCommand_ok {p : Payload} {cmd : Command} (h : readCommand p = some cmd) :
    cmd.mode ≤ JointMode.position.code ∧
      (cmd.mode = JointMode.position.code → 0 < cmd.maxVelocityMdegS) := by
  simp only [readCommand] at h
  split at h
  · cases h
  · rename_i hno
    cases h
    simp only [not_or, not_and] at hno
    exact ⟨UInt8.not_lt.mp hno.1, fun hm => Int32.not_le.mp (hno.2 hm)⟩

theorem decode_ok {α : Type} {type : MsgType} {len : UInt8}
    {read : Payload → Option α} {f : CanFrame} {o msg : α}
    (h : decode type len read (some f) (some o) = (.ok, some msg)) :
    frameCheck (some f) type len = .ok ∧ read f.data = some msg := by
  simp only [decode] at h
  cases hc : frameCheck (some f) type len with
  | ok =>
    rw [hc] at h
    simp only at h
    split at h
    · rename_i hr; cases h; exact ⟨rfl, hr⟩
    · cases h
  | _ => rw [hc] at h; cases h

theorem decoderAccepts_iff {cmd : Command} :
    DecoderAccepts cmd ↔ cmd.mode ≤ JointMode.position.code ∧
      (cmd.mode = JointMode.position.code → 0 < cmd.maxVelocityMdegS) := by
  constructor
  · rintro ⟨f, o, h⟩
    exact readCommand_ok (decode_ok h).2
  · rintro ⟨hm, hv⟩
    have hvalid : commandValid 0 cmd := by
      simp only [commandValid, Bool.and_eq_true, decide_eq_true_eq, Bool.not_eq_true',
        Bool.and_eq_false_imp, beq_iff_eq, decide_eq_false_iff_not]
      exact ⟨⟨by decide, hm⟩, fun hp => Int32.not_le.mpr (hv hp)⟩
    have henc : encodeCommand 0 (some cmd) (some (frameStart .command 0 0)) = (.ok, some _) :=
      encode_eq_ok.mpr ⟨hvalid, rfl⟩
    exact ⟨_, cmd, decode_encode command_laws henc rfl rfl (fun _ _ _ => rfl) cmd⟩

end Rjs

import RobotJointStack.Lib.Struct
import RobotJointStack.Protocol.RoundTrip

/-!
# Protocol.Grammar

The wire format as the protocol document gives it, in tables of fields, and the codec against it.

* `GrammarLaws`: a reader refuses the payloads the document refuses and reads the fields of its
  table. One instance for each message.
* `decoders_follow_grammar`: which result every decoder gives on every frame, and that neither a
  decoder nor an encoder touches its output when it fails.
* `decoders_ignore_stale`: what a receive buffer holds beyond the received bytes has no influence.
* `accepted_encodes_back`: when the encoder sends what the decoder has accepted.
-/

namespace Rjs

open Struct

/-! ## The payload tables -/

/-- The fields of a payload after the version byte: offset and type. -/
abbrev FieldTable := List (Nat × Code)

def heartbeatTable : FieldTable := [(1, .u8), (2, .u16), (4, .u32), (8, .u8), (9, .u8), (10, .u8)]

def commandTable : FieldTable := [(1, .u8), (2, .i32), (6, .i32), (10, .u16)]

def jointStateTable : FieldTable :=
  [(1, .u8), (2, .i32), (6, .i32), (10, .i16), (12, .i16), (14, .u16)]

def emergencyTable : FieldTable := [(2, .u16), (4, .u32)]

/-- The bytes of a field. -/
def bytesAt (p : Payload) (e : Nat × Code) : List UInt8 := (p.toList.drop e.1).take e.2.size

/-- The value of a field, little-endian. -/
def fieldAt (p : Payload) (e : Nat × Code) : Int := e.2.value (bytesAt p e)

/-- The bytes with a meaning: the version and the fields. The others are reserved. -/
def DefinedByte (table : FieldTable) (k : Nat) : Prop :=
  k = 0 ∨ ∃ e ∈ table, e.1 ≤ k ∧ k < e.1 + e.2.size

def Heartbeat.fields (hb : Heartbeat) : List Int :=
  [hb.state.toNat, hb.errorFlags.toNat, hb.uptimeMs.toNat, hb.fwMajor.toNat, hb.fwMinor.toNat,
    hb.fwPatch.toNat]

def Command.fields (cmd : Command) : List Int :=
  [cmd.mode.toNat, cmd.targetMdeg.toInt, cmd.maxVelocityMdegS.toInt, cmd.sequence.toNat]

def JointState.fields (st : JointState) : List Int :=
  [st.mode.toNat, st.positionMdeg.toInt, st.velocityMdegS.toInt, st.currentMa.toInt,
    st.temperatureC10.toInt, st.lastCommandSeq.toNat]

def Emergency.fields (em : Emergency) : List Int := [em.code.toNat, em.detail.toNat]

/-- A command no joint must execute: an unknown mode, or a position without a speed. -/
def CommandRefused (p : Payload) : Prop :=
  1 < fieldAt p (1, .u8) ∨ (fieldAt p (1, .u8) = 1 ∧ fieldAt p (6, .i32) ≤ 0)

/-! ## Reading a field -/

section Field

variable (p : Payload) {i : Nat}

theorem bytesAt_length {e : Nat × Code} (h : e.1 + e.2.size ≤ canMaxPayload) :
    (bytesAt p e).length = e.2.size := by
  rw [bytesAt, List.length_take, List.length_drop, Vector.length_toList]
  omega

theorem drop_toList (h : i < canMaxPayload) : p.toList.drop i = p[i] :: p.toList.drop (i + 1) := by
  rw [List.drop_eq_getElem_cons (by rw [Vector.length_toList]; exact h), Vector.getElem_toList]

theorem fieldAt_u8 (h : i < canMaxPayload) : fieldAt p (i, .u8) = p[i].toNat := by
  rw [fieldAt, bytesAt, drop_toList p h]; rfl

theorem bytesAt_pair {c : Code} (hc : c.size = 2) (h : i + 1 < canMaxPayload) :
    bytesAt p (i, c) = [p[i], p[i + 1]] := by
  simp only [bytesAt, hc, drop_toList p (show i < canMaxPayload by omega), drop_toList p h,
    List.take_succ_cons, List.take_zero]

theorem bytesAt_quad {c : Code} (hc : c.size = 4) (h : i + 3 < canMaxPayload) :
    bytesAt p (i, c) = [p[i], p[i + 1], p[i + 2], p[i + 3]] := by
  simp only [bytesAt, hc, drop_toList p (show i < canMaxPayload by omega),
    drop_toList p (show i + 1 < canMaxPayload by omega),
    drop_toList p (show i + 1 + 1 < canMaxPayload by omega),
    drop_toList p (show i + 1 + 1 + 1 < canMaxPayload by omega), List.take_succ_cons,
    List.take_zero]

theorem fieldAt_u16 (h : i + 1 < canMaxPayload) :
    fieldAt p (i, .u16) = (getU16 p i h).toNat := by
  rw [fieldAt, bytesAt_pair p rfl h, getU16, ← littleEndian_pair]; rfl

theorem fieldAt_i16 (h : i + 1 < canMaxPayload) :
    fieldAt p (i, .i16) = (getU16 p i h).toInt16.toInt := by
  have hword : (getU16 p i h).toInt16.toInt = ((getU16 p i h).toNat : Int).bmod (2 ^ 16) :=
    BitVec.toInt_eq_toNat_bmod _
  rw [hword, fieldAt, bytesAt_pair p rfl h, getU16, ← littleEndian_pair]; rfl

theorem fieldAt_u32 (h : i + 3 < canMaxPayload) :
    fieldAt p (i, .u32) = (getU32 p i h).toNat := by
  rw [fieldAt, bytesAt_quad p rfl h, getU32, ← littleEndian_quad]; rfl

theorem fieldAt_i32 (h : i + 3 < canMaxPayload) :
    fieldAt p (i, .i32) = (getU32 p i h).toInt32.toInt := by
  have hword : (getU32 p i h).toInt32.toInt = ((getU32 p i h).toNat : Int).bmod (2 ^ 32) :=
    BitVec.toInt_eq_toNat_bmod _
  rw [hword, fieldAt, bytesAt_quad p rfl h, getU32, ← littleEndian_quad]; rfl

end Field

/-! ## The readers against the tables -/

/-- What the document asks of a message's reader. -/
structure GrammarLaws {α : Type} (read : Payload → Option α) (fields : α → List Int)
    (table : FieldTable) (refused : Payload → Prop) : Prop where
  inside : ∀ e ∈ table, e.1 + e.2.size ≤ canMaxPayload
  read_none : ∀ p, read p = none ↔ refused p
  fields_read : ∀ {p msg}, read p = some msg → fields msg = table.map (fieldAt p)

theorem heartbeat_grammar :
    GrammarLaws readHeartbeat Heartbeat.fields heartbeatTable (fun _ => False) where
  inside := by decide
  read_none p := by simp [readHeartbeat]
  fields_read h := by
    cases h
    simp only [Heartbeat.fields, heartbeatTable, List.map_cons, List.map_nil,
      fieldAt_u8 _ (show 1 < canMaxPayload by decide),
      fieldAt_u16 _ (show 2 + 1 < canMaxPayload by decide),
      fieldAt_u32 _ (show 4 + 3 < canMaxPayload by decide),
      fieldAt_u8 _ (show 8 < canMaxPayload by decide),
      fieldAt_u8 _ (show 9 < canMaxPayload by decide),
      fieldAt_u8 _ (show 10 < canMaxPayload by decide)]

theorem commandRefused_iff (p : Payload) : CommandRefused p ↔
    p[1] > JointMode.position.code ∨
      (p[1] = JointMode.position.code ∧ (getU32 p 6 (by decide)).toInt32 ≤ 0) := by
  have hmode : (p[1].toNat : Int) = 1 ↔ p[1] = JointMode.position.code := by
    rw [← UInt8.toNat_inj]
    exact Int.ofNat_inj
  have hgt : (1 : Int) < p[1].toNat ↔ p[1] > JointMode.position.code := by
    rw [gt_iff_lt, UInt8.lt_iff_toNat_lt]
    exact Int.ofNat_lt (n := 1)
  have hvel : (getU32 p 6 (by decide)).toInt32.toInt ≤ 0 ↔
      (getU32 p 6 (by decide)).toInt32 ≤ 0 := by
    rw [Int32.le_iff_toInt_le]; rfl
  rw [CommandRefused, fieldAt_u8 _ (show 1 < canMaxPayload by decide),
    fieldAt_i32 _ (show 6 + 3 < canMaxPayload by decide), hmode, hgt, hvel]

theorem command_grammar :
    GrammarLaws readCommand Command.fields commandTable CommandRefused where
  inside := by decide
  read_none p := by
    rw [commandRefused_iff, readCommand]
    simp only
    split
    · rename_i h
      simp only [true_iff]
      exact h
    · rename_i h
      simp only [reduceCtorEq, false_iff]
      exact h
  fields_read h := by
    simp only [readCommand] at h
    split at h
    · cases h
    · cases h
      simp only [Command.fields, commandTable, List.map_cons, List.map_nil,
        fieldAt_u8 _ (show 1 < canMaxPayload by decide),
        fieldAt_i32 _ (show 2 + 3 < canMaxPayload by decide),
        fieldAt_i32 _ (show 6 + 3 < canMaxPayload by decide),
        fieldAt_u16 _ (show 10 + 1 < canMaxPayload by decide)]

theorem jointState_grammar :
    GrammarLaws readJointState JointState.fields jointStateTable (fun _ => False) where
  inside := by decide
  read_none p := by simp [readJointState]
  fields_read h := by
    cases h
    simp only [JointState.fields, jointStateTable, List.map_cons, List.map_nil,
      fieldAt_u8 _ (show 1 < canMaxPayload by decide),
      fieldAt_i32 _ (show 2 + 3 < canMaxPayload by decide),
      fieldAt_i32 _ (show 6 + 3 < canMaxPayload by decide),
      fieldAt_i16 _ (show 10 + 1 < canMaxPayload by decide),
      fieldAt_i16 _ (show 12 + 1 < canMaxPayload by decide),
      fieldAt_u16 _ (show 14 + 1 < canMaxPayload by decide)]

theorem emergency_grammar :
    GrammarLaws readEmergency Emergency.fields emergencyTable (fun _ => False) where
  inside := by decide
  read_none p := by simp [readEmergency]
  fields_read h := by
    cases h
    simp only [Emergency.fields, emergencyTable, List.map_cons, List.map_nil,
      fieldAt_u16 _ (show 2 + 1 < canMaxPayload by decide),
      fieldAt_u32 _ (show 4 + 3 < canMaxPayload by decide)]

/-! ## The decoders -/

def HasType (type : MsgType) (f : CanFrame) : Prop := f.id.toNat / 2 ^ 7 % 2 ^ 4 = type.code.toNat

def HasLength (len : Nat) (f : CanFrame) : Prop := len ≤ f.len.toNat ∧ f.len.toNat ≤ 64

def HasVersion (f : CanFrame) : Prop := fieldAt f.data (0, .u8) = 1

/-- What the document asks of a decoder: one condition for each result, in this order, and an
untouched output on every error. -/
structure FollowsGrammar {α : Type}
    (dec : Option CanFrame → Option α → ProtoResult × Option α) (fields : α → List Int)
    (type : MsgType) (len : Nat) (table : FieldTable) (refused : Payload → Prop) : Prop where
  errType : ∀ f o, (dec (some f) (some o)).1 = .errType ↔ ¬HasType type f
  errLength : ∀ f o, (dec (some f) (some o)).1 = .errLength ↔ HasType type f ∧ ¬HasLength len f
  errVersion : ∀ f o, (dec (some f) (some o)).1 = .errVersion ↔
    HasType type f ∧ HasLength len f ∧ ¬HasVersion f
  errParam : ∀ f o, (dec (some f) (some o)).1 = .errParam ↔
    HasType type f ∧ HasLength len f ∧ HasVersion f ∧ refused f.data
  ok : ∀ f o, (dec (some f) (some o)).1 = .ok ↔
    HasType type f ∧ HasLength len f ∧ HasVersion f ∧ ¬refused f.data
  fields : ∀ f o, (dec (some f) (some o)).1 = .ok →
    ∃ msg, (dec (some f) (some o)).2 = some msg ∧ fields msg = table.map (fieldAt f.data)
  unchanged : ∀ inp out, (dec inp out).1 ≠ .ok → (dec inp out).2 = out

section Decode

variable {α : Type} {type : MsgType} {len : UInt8} {read : Payload → Option α}
  {fields : α → List Int} {table : FieldTable} {refused : Payload → Prop}

theorem toNat_idType (id : UInt16) : (idType id).toNat = id.toNat / 2 ^ 7 % 2 ^ 4 := by
  rw [idType, UInt16.toNat_and, UInt16.toNat_shiftRight, Nat.shiftRight_eq_div_pow]
  exact Nat.and_two_pow_sub_one_eq_mod _ 4

theorem hasType_iff {f : CanFrame} : HasType type f ↔ idType f.id = type.code := by
  rw [HasType, ← toNat_idType, UInt16.toNat_inj]

theorem hasVersion_iff {f : CanFrame} : HasVersion f ↔ f.data[0] = protocolVersion := by
  rw [HasVersion, fieldAt_u8 _ (by decide), ← UInt8.toNat_inj]
  exact Int.ofNat_inj

theorem hasLength_iff {len : UInt8} {f : CanFrame} :
    HasLength len.toNat f ↔ ¬(f.len < len ∨ f.len > UInt8.ofNat canMaxPayload) := by
  rw [not_or, UInt8.not_lt, gt_iff_lt, UInt8.not_lt]
  exact Iff.rfl

variable (type len) in
/-- The five ways through a decoder, in the order of its checks. -/
theorem decode_cases (laws : GrammarLaws read fields table refused) (f : CanFrame) (o : α) :
    (¬HasType type f ∧ decode type len read (some f) (some o) = (.errType, some o)) ∨
    (HasType type f ∧ ¬HasLength len.toNat f ∧
      decode type len read (some f) (some o) = (.errLength, some o)) ∨
    (HasType type f ∧ HasLength len.toNat f ∧ ¬HasVersion f ∧
      decode type len read (some f) (some o) = (.errVersion, some o)) ∨
    (HasType type f ∧ HasLength len.toNat f ∧ HasVersion f ∧ refused f.data ∧
      decode type len read (some f) (some o) = (.errParam, some o)) ∨
    (HasType type f ∧ HasLength len.toNat f ∧ HasVersion f ∧ ¬refused f.data ∧
      ∃ msg, read f.data = some msg ∧
        decode type len read (some f) (some o) = (.ok, some msg)) := by
  by_cases htype : HasType type f
  case neg => exact .inl ⟨htype, decode_errType (mt hasType_iff.mpr htype)⟩
  refine .inr ?_
  have hid : ¬idType f.id ≠ type.code := not_not.mpr (hasType_iff.mp htype)
  by_cases hlen : HasLength len.toNat f
  case neg =>
    have hbad := not_not.mp (mt hasLength_iff.mpr hlen)
    have hc : frameCheck (some f) type len = .errLength := by
      simp only [frameCheck]; rw [if_neg hid, if_pos hbad]
    exact .inl ⟨htype, hlen, by simp only [decode, hc]⟩
  refine .inr ?_
  by_cases hver : HasVersion f
  case neg =>
    have hgood := hasLength_iff.mp hlen
    have hc : frameCheck (some f) type len = .errVersion := by
      simp only [frameCheck]; rw [if_neg hid, if_neg hgood, if_pos (mt hasVersion_iff.mpr hver)]
    exact .inl ⟨htype, hlen, hver, by simp only [decode, hc]⟩
  refine .inr ?_
  have hc : frameCheck (some f) type len = .ok :=
    frameCheck_ok (hasType_iff.mp htype) (UInt8.le_iff_toNat_le.mpr hlen.1)
      (UInt8.le_iff_toNat_le.mpr hlen.2) (hasVersion_iff.mp hver)
  cases hread : read f.data with
  | none =>
    have hrefused : refused f.data := (laws.read_none f.data).mp hread
    exact .inl ⟨htype, hlen, hver, hrefused, by simp only [decode, hc, hread]⟩
  | some msg =>
    have hrefused : ¬refused f.data := by
      intro h
      rw [(laws.read_none f.data).mpr h] at hread
      cases hread
    exact .inr ⟨htype, hlen, hver, hrefused, msg, rfl, decode_of_ok hc hread⟩

theorem decode_unchanged (inp : Option CanFrame) (out : Option α)
    (h : (decode type len read inp out).1 ≠ .ok) : (decode type len read inp out).2 = out := by
  simp only [decode] at h ⊢
  split
  · split
    · rename_i hc _ _ hread
      simp only [hc, hread, ne_eq, not_true_eq_false] at h
    · rfl
  · rfl
  · rfl

theorem decode_followsGrammar (laws : GrammarLaws read fields table refused) :
    FollowsGrammar (decode type len read) fields type len.toNat table refused := by
  have hresults := decode_cases type len laws
  refine ⟨?_, ?_, ?_, ?_, ?_, ?_, decode_unchanged⟩ <;> intro f o
  case refine_6 =>
    intro hok
    obtain h | h | h | h | ⟨-, -, -, -, msg, hread, hd⟩ := hresults f o
    · rw [h.2] at hok; cases hok
    · rw [h.2.2] at hok; cases hok
    · rw [h.2.2.2] at hok; cases hok
    · rw [h.2.2.2.2] at hok; cases hok
    · exact ⟨msg, by rw [hd], laws.fields_read hread⟩
  all_goals
    obtain h | h | h | h | ⟨htype, hlen, hver, hrefused, msg, hread, hd⟩ := hresults f o <;>
      simp [*]

end Decode

/-- A failing encoder leaves the frame alone. -/
def KeepsFrame {α : Type}
    (enc : UInt8 → Option α → Option CanFrame → ProtoResult × Option CanFrame) : Prop :=
  ∀ node inp out, (enc node inp out).1 = .errParam → (enc node inp out).2 = out

theorem encode_keepsFrame {α : Type} (type : MsgType) (len : UInt8) (valid : UInt8 → α → Bool)
    (write : α → Payload → Payload) : KeepsFrame (encode type len valid write) := by
  intro node inp out h
  simp only [encode] at h ⊢
  split
  · split
    · rename_i hvalid
      simp only [hvalid, if_true] at h
      cases h
    · rfl
  · rfl

/-- The decoders accept exactly the documented frames, and failing leaves every output alone. -/
theorem decoders_follow_grammar :
    FollowsGrammar decodeHeartbeat Heartbeat.fields .heartbeat 12 heartbeatTable
      (fun _ => False) ∧
    FollowsGrammar decodeCommand Command.fields .command 12 commandTable CommandRefused ∧
    FollowsGrammar decodeJointState JointState.fields .jointState 16 jointStateTable
      (fun _ => False) ∧
    FollowsGrammar decodeEmergency Emergency.fields .emergency 8 emergencyTable
      (fun _ => False) ∧
    KeepsFrame encodeHeartbeat ∧ KeepsFrame encodeCommand ∧ KeepsFrame encodeJointState ∧
    KeepsFrame encodeEmergency :=
  ⟨decode_followsGrammar heartbeat_grammar, decode_followsGrammar command_grammar,
    decode_followsGrammar jointState_grammar, decode_followsGrammar emergency_grammar,
    encode_keepsFrame _ _ _ _, encode_keepsFrame _ _ _ _, encode_keepsFrame _ _ _ _,
    encode_keepsFrame _ _ _ _⟩

/-! ## Stale bytes -/

/-- Two frames that agree in everything a receiver was sent, as far as a decoder may look: the
type bits, the length and the received bytes. -/
structure SameReceived (f g : CanFrame) : Prop where
  type : f.id.toNat / 2 ^ 7 % 2 ^ 4 = g.id.toNat / 2 ^ 7 % 2 ^ 4
  len : f.len = g.len
  data : ∀ k, k < min f.len.toNat canMaxPayload → f.data[k]? = g.data[k]?

/-- The result is a function of what was received. -/
def IgnoresStale {α : Type} (dec : Option CanFrame → Option α → ProtoResult × Option α) : Prop :=
  ∀ f g o o', SameReceived f g →
    (dec (some f) (some o)).1 = (dec (some g) (some o')).1 ∧
      ((dec (some f) (some o)).1 = .ok → (dec (some f) (some o)).2 = (dec (some g) (some o')).2)

section Stale

variable {α : Type} {type : MsgType} {len : UInt8} {valid : UInt8 → α → Bool}
  {write : α → Payload → Payload} {read : Payload → Option α} {f g : CanFrame}

theorem SameReceived.getElem (h : SameReceived f g) (k : Nat) (hk : k < canMaxPayload)
    (hlt : k < f.len.toNat) : f.data[k] = g.data[k] := by
  have hdata := h.data k (Nat.lt_min.mpr ⟨hlt, hk⟩)
  rw [Vector.getElem?_eq_getElem hk, Vector.getElem?_eq_getElem hk] at hdata
  exact Option.some.inj hdata

/-- The version byte is compared only where the length covers it. -/
theorem SameReceived.frameCheck (h : SameReceived f g) (hpos : 0 < len.toNat) :
    Rjs.frameCheck (some f) type len = Rjs.frameCheck (some g) type len := by
  have hid : idType f.id = idType g.id := by
    rw [← UInt16.toNat_inj, toNat_idType, toNat_idType]
    exact h.type
  simp only [Rjs.frameCheck]
  rw [hid, h.len]
  split
  · rfl
  · split
    · rfl
    · rename_i hlen
      rw [not_or, UInt8.not_lt, UInt8.le_iff_toNat_le, ← h.len] at hlen
      rw [h.getElem 0 (by decide) (by omega)]

theorem decode_ignoresStale (laws : CodecLaws len valid write read) :
    IgnoresStale (decode type len read) := by
  intro f g o o' h
  have hcheck : frameCheck (some f) type len = frameCheck (some g) type len :=
    h.frameCheck laws.nonempty
  cases hc : frameCheck (some g) type len with
  | ok =>
    have hlen : len.toNat ≤ f.len.toNat := by
      have hf : frameCheck (some f) type len = .ok := hcheck.trans hc
      exact (frameCheck_ok_iff.mp hf).2.1.1
    have hread : read f.data = read g.data :=
      laws.congr fun k hk hlt => h.getElem k hk (by omega)
    cases hg : read g.data with
    | none => simp [decode, hcheck, hc, hread, hg]
    | some msg => simp [decode, hcheck, hc, hread, hg]
  | _ => simp [decode, hcheck, hc]

end Stale

/-- No byte beyond the received ones, and nothing left in the output, reaches a message. -/
theorem decoders_ignore_stale :
    IgnoresStale decodeHeartbeat ∧ IgnoresStale decodeCommand ∧ IgnoresStale decodeJointState ∧
      IgnoresStale decodeEmergency :=
  ⟨decode_ignoresStale heartbeat_laws, decode_ignoresStale command_laws,
    decode_ignoresStale jointState_laws, decode_ignoresStale emergency_laws⟩

/-! ## Sending what was received -/

/-- The encoder against the decoder: an accepted message that may be sent from or to its node is
encoded to a frame with the same identifier and the same meaningful bytes, any other is refused. -/
structure EncodesBack {α : Type} (dec : Option CanFrame → Option α → ProtoResult × Option α)
    (enc : UInt8 → Option α → Option CanFrame → ProtoResult × Option CanFrame)
    (table : FieldTable) (sendable : UInt8 → α → Prop) : Prop where
  sends : ∀ f o out msg, f.id.toNat < 2 ^ 11 → dec (some f) (some o) = (.ok, some msg) →
    sendable (idNode f.id) msg →
    ∃ g, enc (idNode f.id) (some msg) (some out) = (.ok, some g) ∧ g.id = f.id ∧
      ∀ k, DefinedByte table k → g.data[k]? = f.data[k]?
  refuses : ∀ f o out msg, f.id.toNat < 2 ^ 11 → dec (some f) (some o) = (.ok, some msg) →
    ¬sendable (idNode f.id) msg → enc (idNode f.id) (some msg) (some out) = (.errParam, some out)

section Back

variable {α : Type} {type : MsgType} {len : UInt8} {valid : UInt8 → α → Bool}
  {write : α → Payload → Payload} {read : Payload → Option α} {fields : α → List Int}
  {table : FieldTable} {refused : Payload → Prop} {sendable : UInt8 → α → Prop} {p q : Payload}

/-- Equal values in every field are equal bytes in every field. -/
theorem getElem?_of_fields (hinside : ∀ e ∈ table, e.1 + e.2.size ≤ canMaxPayload)
    (h : table.map (fieldAt p) = table.map (fieldAt q)) {e : Nat × Code} (he : e ∈ table) {k : Nat}
    (hlo : e.1 ≤ k) (hhi : k < e.1 + e.2.size) : p[k]? = q[k]? := by
  have hvalue : fieldAt p e = fieldAt q e := List.map_inj_left.mp h e he
  have hbytes : bytesAt p e = bytesAt q e :=
    e.2.value_inj (bytesAt_length p (hinside e he)) (bytesAt_length q (hinside e he)) hvalue
  have hget : ∀ r : Payload, (bytesAt r e)[k - e.1]? = r[k]? := by
    intro r
    rw [bytesAt, List.getElem?_take_of_lt (by omega), List.getElem?_drop,
      Nat.add_sub_cancel' hlo, Vector.getElem?_toList]
  rw [← hget p, ← hget q, hbytes]

theorem makeId_idNode {id : UInt16} (htype : idType id = type.code) (hid : id.toNat < 2 ^ 11) :
    makeId type (idNode id) = id := by
  have hcode : type.code.toNat = id.toNat / 2 ^ 7 % 2 ^ 4 := by rw [← htype, toNat_idType]
  have hnode : (idNode id).toNat = id.toNat % 128 := by
    have hand : (id &&& 0x7F).toNat = id.toNat % 2 ^ 7 := by
      rw [UInt16.toNat_and]; exact Nat.and_two_pow_sub_one_eq_mod id.toNat 7
    rw [idNode, UInt16.toNat_toUInt8, hand]
    omega
  rw [← UInt16.toNat_inj, toNat_makeId, hcode, hnode]
  omega

theorem decode_encodesBack (codec : CodecLaws len valid write read)
    (grammar : GrammarLaws read fields table refused)
    (hvalid : ∀ {id p msg}, read p = some msg → (valid (idNode id) msg ↔ sendable (idNode id) msg)) :
    EncodesBack (decode type len read) (encode type len valid write) table sendable where
  sends f o out msg hid hdec hsend := by
    obtain ⟨hcheck, hread⟩ := decode_ok hdec
    obtain ⟨htype, -, hver⟩ := frameCheck_ok_iff.mp hcheck
    have hv : valid (idNode f.id) msg := (hvalid hread).mpr hsend
    refine ⟨_, encode_eq_ok.mpr ⟨hv, rfl⟩, makeId_idNode htype hid, ?_⟩
    rintro k (rfl | ⟨e, he, hlo, hhi⟩)
    · rw [Vector.getElem?_eq_getElem (by decide), Vector.getElem?_eq_getElem (by decide),
        codec.version, hver]
      exact congrArg some (Vector.getElem_set_self _)
    · refine getElem?_of_fields grammar.inside ?_ he hlo hhi
      rw [← grammar.fields_read (codec.roundTrip hv _), ← grammar.fields_read hread]
  refuses f o out msg _ hdec hsend := by
    have hv : ¬valid (idNode f.id) msg := mt (hvalid (decode_ok hdec).2).mp hsend
    simp [encode, hv]

theorem idNode_le (id : UInt16) : idNode id ≤ nodeIdMax := by
  have hand : (id &&& 0x7F).toNat ≤ 127 := by
    rw [UInt16.toNat_and]; exact Nat.and_le_right
  rw [UInt8.le_iff_toNat_le, idNode, UInt16.toNat_toUInt8]
  exact (Nat.mod_le _ _).trans hand

theorem nodeValid_idNode (id : UInt16) : nodeValid (idNode id) ↔ idNode id ≠ nodeBroadcast := by
  have hpos : idNode id ≥ 1 ↔ idNode id ≠ nodeBroadcast := by
    rw [ge_iff_le, UInt8.le_iff_toNat_le, ne_eq, ← UInt8.toNat_inj]
    exact Nat.one_le_iff_ne_zero
  simp only [nodeValid, Bool.and_eq_true, decide_eq_true_eq, hpos, idNode_le, and_true]

end Back

/-- Of the accepted messages, the encoders send every command, and the others unless they come
from the broadcast address or are a heartbeat of an undefined state. -/
theorem accepted_encodes_back :
    EncodesBack decodeHeartbeat encodeHeartbeat heartbeatTable
      (fun node hb => node ≠ nodeBroadcast ∧ hb.state ≤ NodeState.fault.code) ∧
    EncodesBack decodeCommand encodeCommand commandTable (fun _ _ => True) ∧
    EncodesBack decodeJointState encodeJointState jointStateTable
      (fun node _ => node ≠ nodeBroadcast) ∧
    EncodesBack decodeEmergency encodeEmergency emergencyTable
      (fun node _ => node ≠ nodeBroadcast) := by
  refine ⟨decode_encodesBack heartbeat_laws heartbeat_grammar ?_,
    decode_encodesBack command_laws command_grammar ?_,
    decode_encodesBack jointState_laws jointState_grammar ?_,
    decode_encodesBack emergency_laws emergency_grammar ?_⟩
  · intro id p hb _
    simp only [heartbeatValid, Bool.and_eq_true, nodeValid_idNode, decide_eq_true_eq]
  · intro id p cmd hread
    obtain ⟨hmode, hvel⟩ := readCommand_ok hread
    simp only [commandValid, Bool.and_eq_true, decide_eq_true_eq, Bool.not_eq_true',
      Bool.and_eq_false_imp, beq_iff_eq, decide_eq_false_iff_not, iff_true]
    exact ⟨⟨idNode_le id, hmode⟩, fun hp => Int32.not_le.mpr (hvel hp)⟩
  · intro id p st _
    exact nodeValid_idNode id
  · intro id p em _
    exact nodeValid_idNode id

/-- Accepted, but never sent: a heartbeat of state 7 from node 1, and one from the broadcast
address. -/
theorem accepted_not_sent :
    let payload : Payload := (Vector.replicate canMaxPayload 0).set 0 1
    let undefined : CanFrame := ⟨0x381, 12, true, true, payload.set 1 7⟩
    let fromAll : CanFrame := ⟨0x380, 12, true, true, payload.set 1 2⟩
    let hb : Heartbeat := ⟨7, 0, 0, 0, 0, 0⟩
    let hb' : Heartbeat := ⟨2, 0, 0, 0, 0, 0⟩
    (undefined.id.toNat < 2 ^ 11 ∧
      decodeHeartbeat (some undefined) (some default) = (.ok, some hb) ∧
      encodeHeartbeat (idNode undefined.id) (some hb) (some undefined) =
        (.errParam, some undefined)) ∧
    fromAll.id.toNat < 2 ^ 11 ∧
      decodeHeartbeat (some fromAll) (some default) = (.ok, some hb') ∧
      encodeHeartbeat (idNode fromAll.id) (some hb') (some fromAll) =
        (.errParam, some fromAll) := by
  decide +kernel

end Rjs

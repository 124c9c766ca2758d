import RobotJointStack.Tools.Agreement

/-!
# Tools.Acceptance

What the Python mirror shows and the nodes refuse. The mirror masks an identifier of any width,
takes any number of bytes and looks at no field; the nodes filter, limit and validate.

* `standardId_iff`: the identifiers in text that have eleven bits.
* `nodeAccepts_iff`: what the nodes ask for beyond the checks of the mirror.
* `mirror_accepts_iff`: so which of the lines that the mirror decodes the nodes accept.
-/

namespace Rjs

open Candump Mirror

/-! ## Identifiers -/

/-- Zeros, then a digit up to 7, then two more: eleven bits. -/
def StandardId (id : List Char) : Prop :=
  ∃ k a b c, id = List.replicate k '0' ++ [a, b, c] ∧ a ∈ ['0', '1', '2', '3', '4', '5', '6', '7']

theorem value_triple {a b c : Char} {x y z : Nat} (ha : Hex.digit? a = some x)
    (hb : Hex.digit? b = some y) (hc : Hex.digit? c = some z) :
    Hex.value [a, b, c] = 256 * x + 16 * y + z := by
  simp only [Hex.value, List.foldl_cons, List.foldl_nil, ha, hb, hc, Option.getD_some]
  omega

theorem standardId_iff {id : List Char} (hhex : ∀ c ∈ id, Hex.isDigit c = true)
    (hlen : 3 ≤ id.length) : StandardId id ↔ Hex.value id ≤ 0x7FF := by
  obtain ⟨front, a, b, c, rfl⟩ : ∃ front a b c, id = front ++ [a, b, c] := by
    have hlast : (id.drop (id.length - 3)).length = 3 := by rw [List.length_drop]; omega
    obtain ⟨a, b, c, habc⟩ := List.length_eq_three.mp hlast
    exact ⟨id.take (id.length - 3), a, b, c, by rw [← habc, List.take_append_drop]⟩
  obtain ⟨hfront, hlast⟩ := List.forall_mem_append.mp hhex
  obtain ⟨x, hx⟩ := Option.isSome_iff_exists.mp (hlast a (by simp))
  obtain ⟨y, hy⟩ := Option.isSome_iff_exists.mp (hlast b (by simp))
  obtain ⟨z, hz⟩ := Option.isSome_iff_exists.mp (hlast c (by simp))
  have hy16 := Hex.digit_lt hy
  have hz16 := Hex.digit_lt hz
  rw [Hex.value_append, value_triple hx hy hz]
  constructor
  · rintro ⟨k, a', b', c', heq, ha⟩
    obtain ⟨rfl, habc⟩ := List.append_inj' heq rfl
    cases habc
    have hzero : Hex.value (List.replicate k '0') = 0 := by
      rw [← List.append_nil (List.replicate k '0'), Hex.value_replicate]; rfl
    have hx8 : x < 8 := by
      simp only [List.mem_cons, List.not_mem_nil, or_false] at ha
      rcases ha with rfl | rfl | rfl | rfl | rfl | rfl | rfl | rfl <;> cases hx <;> decide
    rw [hzero]
    omega
  · intro hle
    have hzero : Hex.value front = 0 := by
      simp only [List.length_cons, List.length_nil] at hle
      omega
    have hx8 : x < 8 := by
      rw [hzero] at hle
      omega
    refine ⟨front.length, a, b, c, by rw [← Hex.value_eq_zero hfront hzero], ?_⟩
    rw [Hex.eq_upper hx (by omega)]
    interval_cases x <;> decide

/-! ## Commands -/

/-- Mode 0, or mode 1 and four bytes of velocity that stand for a positive number. -/
def CommandOk (data : List UInt8) : Prop :=
  data[1]? = some 0 ∨
    data[1]? = some 1 ∧ data.getD 9 0 < 0x80 ∧ ∃ i ∈ [6, 7, 8, 9], data.getD i 0 ≠ 0

instance (data : List UInt8) : Decidable (CommandOk data) := by
  unfold CommandOk
  infer_instance

theorem toInt32_pos {w : UInt32} : 0 < w.toInt32 ↔ w.toNat < 2 ^ 31 ∧ w.toNat ≠ 0 := by
  have hint : w.toInt32.toInt = if 2 * w.toNat < 2 ^ 32 then (w.toNat : Int)
      else (w.toNat : Int) - 2 ^ 32 := BitVec.toInt_eq_toNat_cond _
  have hw := w.toNat_lt
  rw [Int32.lt_iff_toInt_lt, hint]
  show (0 : Int) < _ ↔ _
  split <;> omega

section Frame

variable {f : CanFrame} {canId : Nat} {data : List UInt8} {kind : Kind}

theorem Carries.getD (h : Carries f canId data) {i : Nat} (hi : i < canMaxPayload)
    (hlen : i < data.length) : data.getD i 0 = f.data[i] := by
  rw [List.getD_eq_getElem?_getD, h.data i hi hlen]; rfl

theorem velocity_pos (h : Carries f canId data) (hlen : 12 ≤ data.length) :
    0 < (getU32 f.data 6 (by decide)).toInt32 ↔
      data.getD 9 0 < 0x80 ∧ ∃ i ∈ [6, 7, 8, 9], data.getD i 0 ≠ 0 := by
  have hnz : ∀ b : UInt8, b ≠ 0 ↔ b.toNat ≠ 0 := by
    intro b
    rw [ne_eq, ← UInt8.toNat_inj]; rfl
  rw [toInt32_pos, getU32, Bytes.toNat_join32]
  simp only [List.mem_cons, List.not_mem_nil, or_false, exists_eq_or_imp, exists_eq_left,
    h.getD (i := 6) (by decide) (by omega), h.getD (i := 7) (by decide) (by omega),
    h.getD (i := 8) (by decide) (by omega), h.getD (i := 9) (by decide) (by omega), hnz,
    UInt8.lt_iff_toNat_lt, Nat.reduceAdd]
  have h6 := f.data[6].toNat_lt
  have h7 := f.data[7].toNat_lt
  have h8 := f.data[8].toNat_lt
  have h9 := f.data[9].toNat_lt
  show _ ↔ f.data[9].toNat < 128 ∧ _
  omega

theorem commandOk_iff (h : Carries f canId data) (hlen : 12 ≤ data.length) :
    (readCommand f.data).isSome ↔ CommandOk data := by
  have hmode : ∀ x, data[1]? = some x ↔ f.data[1] = x := by
    intro x
    rw [h.data 1 (by decide) (by omega), Option.some.injEq]
  have hle : f.data[1] > JointMode.position.code ↔ ¬(f.data[1] = 0 ∨ f.data[1] = 1) := by
    rw [gt_iff_lt, UInt8.lt_iff_toNat_lt, ← UInt8.toNat_inj, ← UInt8.toNat_inj]
    show 1 < _ ↔ ¬(_ = 0 ∨ _ = 1)
    omega
  have hread : (readCommand f.data).isSome ↔ ¬(f.data[1] > JointMode.position.code ∨
      f.data[1] = JointMode.position.code ∧ (getU32 f.data 6 (by decide)).toInt32 ≤ 0) := by
    unfold readCommand
    dsimp only
    split
    · rename_i hbad
      exact iff_of_false Bool.false_ne_true (not_not.mpr hbad)
    · rename_i hgood
      exact iff_of_true rfl hgood
  have hone : JointMode.position.code = 1 := rfl
  rw [CommandOk, hmode, hmode, ← velocity_pos h hlen, hread, hle, hone, ← Int32.not_le]
  constructor
  · intro hgood
    rw [not_or, not_not, not_and] at hgood
    exact hgood.1.imp_right fun h1 => ⟨h1, hgood.2 h1⟩
  · rintro (h0 | ⟨h1, hpos⟩)
    · rw [h0]
      rintro (hne | ⟨h1, -⟩)
      · exact hne (.inl rfl)
      · cases h1
    · rintro (hne | ⟨-, hle⟩)
      · exact hne (.inr h1)
      · exact hpos hle

/-! ## Frames -/

/-- The CAN FD frame with this identifier and these bytes. -/
def frameOf (canId : Nat) (data : List UInt8) : CanFrame where
  id := UInt16.ofNat canId
  len := UInt8.ofNat data.length
  fd := true
  brs := true
  data := Vector.ofFn fun i => data.getD i 0

theorem carries_frameOf (hid : canId ≤ 0x7FF) (hlen : data.length ≤ 64) :
    Carries (frameOf canId data) canId data where
  id := UInt16.toNat_ofNat_of_lt' (Nat.lt_of_le_of_lt hid (by decide))
  len := UInt8.toNat_ofNat_of_lt' (Nat.lt_of_le_of_lt hlen (by decide))
  data i hi hlt := by
    simp [frameOf, List.getElem?_eq_getElem hlt]

/-- What the nodes ask for of a frame that the mirror would decode. -/
theorem nodeAccepts_iff (hkind : (splitId canId).1 = kind.msg)
    (hver : data.head? = some Mirror.protocolVersion) (hlen : kind.minLen ≤ data.length) :
    NodeAccepts canId data ↔
      canId ≤ 0x7FF ∧ data.length ≤ 64 ∧ (kind = .command → CommandOk data) := by
  have hread : ∀ {f : CanFrame}, Carries f canId data →
      ((readKind f.data kind).isSome ↔ (kind = .command → CommandOk data)) := by
    intro f h
    cases kind with
    | command =>
      rw [readKind, Option.isSome_map, commandOk_iff h hlen]
      simp
    | _ => exact iff_of_true rfl fun hcmd => by cases hcmd
  have hid : ∀ {f : CanFrame}, Carries f canId data → idType f.id = kind.type.code := by
    intro f h
    rw [idType_eq_iff, h.id, hkind]
  constructor
  · rintro ⟨hle, f, h, hsome⟩
    obtain ⟨m, hm⟩ := Option.isSome_iff_exists.mp hsome
    obtain ⟨-, h64, -, hmsg⟩ := (nodeDecode_of_kind (hid h)).mp hm
    exact ⟨hle, h.len ▸ h64, (hread h).mp (by rw [hmsg]; rfl)⟩
  · rintro ⟨hle, h64, hcmd⟩
    have h := carries_frameOf hle h64
    obtain ⟨m, hm⟩ := Option.isSome_iff_exists.mp ((hread h).mpr hcmd)
    have hpos : 0 < data.length := Nat.lt_of_lt_of_le kind.minLen_pos hlen
    have hzero : (frameOf canId data).data[0] = Rjs.protocolVersion := by
      have hhead := h.head hpos
      rw [hver] at hhead
      exact (Option.some.inj hhead).symm
    refine ⟨hle, _, h, ?_⟩
    rw [(nodeDecode_of_kind (hid h)).mpr ⟨hzero, h.len ▸ h64, h.len ▸ hlen, hm⟩]
    rfl

end Frame

/-! ## Lines -/

/-- A line has its parts in one way. -/
theorem id_unique {c c' : CandumpLine} (hc : c.WellFormed) (hc' : c'.WellFormed)
    (h : c.text = c'.text) : c.id = c'.id := by
  have hgroups : some c.groups = some c'.groups := by
    rw [← match_of_wellFormed hc, ← match_of_wellFormed hc', h]
  have hid := (lookup_groups c).2.1
  rw [Option.some.inj hgroups, (lookup_groups c').2.1] at hid
  exact (Option.some.inj hid).symm

theorem standard_iff {line : List Char} {ts : Timestamp} {canId : Nat} {data : List UInt8}
    (hparse : parseCandumpLine line = .ok (some (ts, canId, data))) :
    canId ≤ 0x7FF ↔ ∃ c : CandumpLine, c.WellFormed ∧ strip line = c.text ∧ StandardId c.id := by
  obtain ⟨c, hc, htext, -, rfl, -⟩ := parse_iff.mp hparse
  rw [← standardId_iff hc.id.2 hc.id.1.1]
  constructor
  · intro hstd
    exact ⟨c, hc, htext, hstd⟩
  · rintro ⟨c', hc', htext', hstd⟩
    rw [id_unique hc hc' (htext.symm.trans htext')]
    exact hstd

theorem unpack_of_decode {canId : Nat} {data : List UInt8} {d : Decoded}
    (h : Mirror.decode canId data = .ok (some d)) :
    ∃ r, unpackMessage canId data = .ok (some r) := by
  rw [Mirror.decode] at h
  generalize unpackMessage canId data = res at h
  cases res with
  | error e => cases h
  | ok r =>
    cases r with
    | none => cases h
    | some r => exact ⟨r, rfl⟩

/-- The mirror's line is accepted by the nodes exactly when its identifier is a standard one, its
bytes fit a frame, and a command is one that a joint may execute. -/
theorem mirror_accepts_iff {line : List Char} {ts : Timestamp} {canId : Nat} {data : List UInt8}
    {d : Decoded} (hparse : parseCandumpLine line = .ok (some (ts, canId, data)))
    (hdecode : Mirror.decode canId data = .ok (some d)) :
    NodeAccepts canId data ↔
      (∃ c : CandumpLine, c.WellFormed ∧ strip line = c.text ∧ StandardId c.id) ∧
        data.length ≤ 64 ∧ ((splitId canId).1 = msgCommand → CommandOk data) := by
  obtain ⟨r, hunpack⟩ := unpack_of_decode hdecode
  obtain ⟨hver, kind, hkind, hlen⟩ := kind_of_unpack hunpack
  have hcommand : (splitId canId).1 = msgCommand ↔ kind = .command := by
    rw [hkind]
    cases kind <;> decide
  rw [nodeAccepts_iff hkind hver hlen, standard_iff hparse, hcommand]

theorem mirror_accepts_heartbeat :
    NodeAccepts 0x385 [1, 2, 0, 0, 0, 0, 0, 0, 0, 1, 2, 0] ↔
      (∃ c : CandumpLine, c.WellFormed ∧
        strip "(0.5) can0 385##1010200000000000000010200".toList = c.text ∧ StandardId c.id) ∧
      12 ≤ 64 ∧ ((splitId 0x385).1 = msgCommand →
        CommandOk [1, 2, 0, 0, 0, 0, 0, 0, 0, 1, 2, 0]) :=
  mirror_accepts_iff
    (show parseCandumpLine "(0.5) can0 385##1010200000000000000010200".toList =
      .ok (some (⟨5, 1⟩, _, _)) by decide +kernel) rfl

/-- A line with a command in mode 7 for node 2. -/
def mode7Line : List Char :=
  "(1695040000.123456) can0 082##1010700000000000000000000".toList

/-- A command that every joint refuses is shown as a command. -/
theorem mirror_shows_refused : ¬∀ line ts canId data d,
    parseCandumpLine line = .ok (some (ts, canId, data)) →
      Mirror.decode canId data = .ok (some d) → NodeAccepts canId data := by
  intro h
  have haccepts := h mode7Line ⟨1695040000123456, 6⟩ 0x082
    [1, 7, 0, 0, 0, 0, 0, 0, 0, 0, 0, 0] _ (by decide +kernel) rfl
  have hcmd := ((nodeAccepts_iff (show (splitId 0x082).1 = Kind.command.msg by decide)
    (by decide) (by decide)).mp haccepts).2.2 rfl
  exact absurd hcmd (by decide)

end Rjs

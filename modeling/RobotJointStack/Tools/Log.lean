import Mathlib.Algebra.Group.Nat.Even
import Mathlib.Data.List.TakeDrop
import RobotJointStack.Tools.Candump
import RobotJointStack.Tools.Mirror

/-!
# Tools.Log

The loop of `main` over the lines of a log. A bad frame is printed as such and skipped, but the
conversions of `parse_candump_line` stand outside the `try`, and what they raise ends the program.

* `float_isSome_iff`, `bytes_isSome_iff`: the texts that can be converted.
* `parse_ok_iff`: the lines that are read or passed over, and raise nothing.
* `readsAll_iff`: the logs of which every line is processed.
-/

namespace Rjs
namespace Mirror

open Candump

/-- What `except ValueError` catches; `struct.error` is no `ValueError`. -/
def DecodeError.isValueError : DecodeError → Bool
  | version _ => true
  | tooShort _ => true
  | struct => false

/-- A line of output. -/
inductive Printed where
  | frame (ts : Timestamp) (d : Decoded)
  | bad (ts : Timestamp) (message : String)
deriving DecidableEq, Repr

/-- An exception that nothing catches. -/
inductive Uncaught where
  | parse (e : ParseError)
  | decode (e : DecodeError)
deriving DecidableEq, Repr

/-- The body of the loop of `main`. -/
def processLine (line : List Char) : Except Uncaught (Option Printed) :=
  match parseCandumpLine line with
  | .error e => .error (.parse e)
  | .ok none => .ok none
  | .ok (some (ts, canId, data)) =>
    match decode canId data with
    | .error e => if e.isValueError then .ok (some (.bad ts e.message)) else .error (.decode e)
    | .ok none => .ok none
    | .ok (some d) => .ok (some (.frame ts d))

/-- `main`: what is printed, and the exception that ends it if there is one. -/
def main : List (List Char) → List Printed × Option Uncaught
  | [] => ([], none)
  | line :: lines =>
    match processLine line with
    | .error e => ([], some e)
    | .ok out =>
      let (rest, e) := main lines
      (out.toList ++ rest, e)

/-- The whole log is processed: no line raises anything, and every line is printed as it would be on
its own. -/
structure ReadsAll (lines : List (List Char)) : Prop where
  parses : ∀ line ∈ lines, ∃ r, parseCandumpLine line = .ok r
  ends : (main lines).2 = none
  output : (main lines).1 = lines.flatMap fun line => (main [line]).1

/-- A text that `float` takes: at most one point, and not only that. -/
def Decimal (text : List Char) : Prop := (∃ x ∈ text, x ≠ '.') ∧ text.count '.' ≤ 1

/-- If the line looks like a frame, its timestamp is one number, and its data are whole bytes. -/
def Convertible (line : List Char) : Prop :=
  ∀ c : CandumpLine, c.WellFormed → strip line = c.text → Decimal c.ts ∧ Even c.data.length

/-! ## Conversions -/

theorem decimal_of_no_point {text : List Char} (h : '.' ∉ text) : Decimal text ↔ text ≠ [] := by
  rw [Decimal, List.count_eq_zero_of_not_mem h]
  constructor
  · rintro ⟨⟨x, hx, -⟩, -⟩
    exact List.ne_nil_of_mem hx
  · intro hne
    obtain ⟨x, hx⟩ := List.exists_mem_of_ne_nil text hne
    exact ⟨⟨x, hx, fun he => h (he ▸ hx)⟩, Nat.zero_le 1⟩

theorem decimal_of_point {whole fraction : List Char} (h : '.' ∉ whole) :
    Decimal (whole ++ '.' :: fraction) ↔ '.' ∉ fraction ∧ whole ++ fraction ≠ [] := by
  have hcount : (whole ++ '.' :: fraction).count '.' = fraction.count '.' + 1 := by
    rw [List.count_append, List.count_eq_zero_of_not_mem h, List.count_cons_self, Nat.zero_add]
  have hpoint : fraction.count '.' + 1 ≤ 1 ↔ '.' ∉ fraction := by
    rw [← List.count_eq_zero]
    omega
  rw [Decimal, hcount, hpoint, and_comm]
  refine and_congr_right fun hfraction => ?_
  constructor
  · rintro ⟨x, hx, hne⟩
    rw [List.mem_append, List.mem_cons] at hx
    refine List.ne_nil_of_mem (List.mem_append.mpr (hx.imp_right fun hx => hx.resolve_left hne))
  · intro hne
    obtain ⟨x, hx⟩ := List.exists_mem_of_ne_nil _ hne
    rw [List.mem_append] at hx
    refine ⟨x, List.mem_append.mpr (hx.imp_right (List.mem_cons_of_mem _)), fun he => ?_⟩
    subst he
    exact hx.elim h hfraction

theorem span_point {whole rest : List Char} (h : '.' ∉ whole) (hrest : ∀ x ∈ rest.head?, x = '.') :
    (whole ++ rest).span (· != '.') = (whole, rest) := by
  have hwhole : ∀ x ∈ whole, (x != '.') = true := fun x hx => bne_iff_ne.mpr fun he => h (he ▸ hx)
  rw [List.span_eq_takeWhile_dropWhile, List.takeWhile_append_of_pos hwhole,
    List.dropWhile_append_of_pos hwhole]
  cases rest with
  | nil => simp
  | cons x rest =>
    obtain rfl := hrest x rfl
    simp

theorem float_isSome_iff (text : List Char) : (float? text).isSome = true ↔ Decimal text := by
  by_cases hpoint : '.' ∈ text
  · obtain ⟨whole, fraction, rfl, hwhole⟩ := List.eq_append_cons_of_mem hpoint
    rw [decimal_of_point hwhole, float?, span_point hwhole (by simp)]
    dsimp only
    split
    · rename_i h
      refine iff_of_false Bool.false_ne_true fun hd => ?_
      exact h.elim hd.1 fun hempty => hd.2 (List.isEmpty_iff.mp hempty)
    · rename_i h
      rw [not_or, List.isEmpty_iff] at h
      exact iff_of_true rfl h
  · have hspan : text.span (· != '.') = (text, []) := by
      simpa using span_point hpoint (by simp : ∀ x ∈ ([] : List Char).head?, x = '.')
    rw [decimal_of_no_point hpoint, float?, hspan]
    cases text <;> simp

theorem bytes_isSome_iff {text : List Char} (h : ∀ x ∈ text, Hex.isDigit x = true) :
    (Hex.bytes? text).isSome = true ↔ Even text.length := by
  have htwo : ∀ n, Even (n + 2) ↔ Even n := fun n => by simp [Nat.even_add]
  fun_induction Hex.bytes? text with
  | case1 => simp
  | case2 => simp
  | case3 a b text x y bytes hbytes _ _ ih =>
    obtain ⟨-, -, htext⟩ := List.forall_mem_cons.mp h |>.imp_right List.forall_mem_cons.mp
    rw [hbytes] at ih
    exact (ih htext).trans (htwo text.length).symm
  | case4 a b text hnone ih =>
    obtain ⟨ha, hb, htext⟩ := List.forall_mem_cons.mp h |>.imp_right List.forall_mem_cons.mp
    obtain ⟨x, hx⟩ := Option.isSome_iff_exists.mp ha
    obtain ⟨y, hy⟩ := Option.isSome_iff_exists.mp hb
    have hrest : ¬(Hex.bytes? text).isSome = true := fun hsome => by
      obtain ⟨bytes, hbytes⟩ := Option.isSome_iff_exists.mp hsome
      exact hnone x y bytes hx hy hbytes
    exact iff_of_false Bool.false_ne_true fun heven =>
      hrest ((ih htext).mpr ((htwo text.length).mp heven))

/-! ## Lines -/

theorem parse_ok_iff {line : List Char} :
    (∃ r, parseCandumpLine line = .ok r) ↔ Convertible line := by
  have hconv : ∀ {c : CandumpLine}, c.WellFormed → strip line = c.text →
      ((∃ r, parseCandumpLine line = .ok r) ↔ Decimal c.ts ∧ Even c.data.length) := by
    intro c hc htext
    obtain ⟨hts, -, hdata⟩ := lookup_groups c
    rw [← float_isSome_iff, ← bytes_isSome_iff hc.data, parseCandumpLine, htext,
      match_of_wellFormed hc]
    simp only [hts, hdata, Option.getD_some]
    cases float? c.ts <;> cases Hex.bytes? c.data <;> simp
  constructor
  · intro h c hc htext
    exact (hconv hc htext).mp h
  · intro h
    cases hm : pattern.matchStart (strip line) with
    | none => exact ⟨none, by rw [parseCandumpLine, hm]⟩
    | some g =>
      obtain ⟨c, hc, htext, -⟩ := wellFormed_of_match hm
      exact (hconv hc htext).mpr (h c hc htext)

/-! ## The loop -/

/-- A message that is long enough for what is unpacked only fails by being too short. -/
theorem isValueError_of_guarded {α : Type} {data : List UInt8} {n : Nat} {kind : Kind}
    {r : Except DecodeError α} {e : DecodeError} (hr : n ≤ data.length → ∃ a, r = .ok a)
    (h : (if data.length < n then .error (.tooShort kind) else r) = .error e) :
    e.isValueError = true := by
  by_cases hlen : data.length < n
  · rw [if_pos hlen] at h
    cases h
    rfl
  · obtain ⟨a, rfl⟩ := hr (not_lt.mp hlen)
    rw [if_neg hlen] at h
    cases h

theorem unpackMessage_error {canId : Nat} {data : List UInt8} {e : DecodeError}
    (h : unpackMessage canId data = .error e) : e.isValueError = true := by
  rw [unpackMessage] at h
  generalize splitId canId = id at h
  obtain ⟨msgType, node⟩ := id
  dsimp only at h
  split at h
  · cases h
    rfl
  split at h
  · refine isValueError_of_guarded (fun hlen => ?_) h
    obtain ⟨values, hv, hn⟩ :=
      Struct.unpackFrom_eq_some [.u8, .u16, .u32, .u8, .u8, .u8] (show 1 + 10 ≤ data.length by omega)
    match values, hn with
    | [_, _, _, _, _, _], _ => exact ⟨_, by rw [hv]⟩
  split at h
  · refine isValueError_of_guarded (fun hlen => ?_) h
    obtain ⟨values, hv, hn⟩ :=
      Struct.unpackFrom_eq_some [.u8, .i32, .i32, .u16] (show 1 + 11 ≤ data.length by omega)
    match values, hn with
    | [_, _, _, _], _ => exact ⟨_, by rw [hv]⟩
  split at h
  · refine isValueError_of_guarded (fun hlen => ?_) h
    obtain ⟨values, hv, hn⟩ :=
      Struct.unpackFrom_eq_some [.u8, .i32, .i32, .i16, .i16, .u16] (show 1 + 15 ≤ data.length by omega)
    match values, hn with
    | [_, _, _, _, _, _], _ => exact ⟨_, by rw [hv]⟩
  split at h
  · refine isValueError_of_guarded (fun hlen => ?_) h
    obtain ⟨values, hv, hn⟩ :=
      Struct.unpackFrom_eq_some [.u16, .u32] (show 2 + 6 ≤ data.length by omega)
    match values, hn with
    | [_, _], _ => exact ⟨_, by rw [hv]⟩
  · cases h

/-- No decoded frame raises what `main` does not catch. -/
theorem decode_error {canId : Nat} {data : List UInt8} {e : DecodeError}
    (h : decode canId data = .error e) : e.isValueError = true := by
  rw [decode] at h
  cases hunpack : unpackMessage canId data with
  | error e' =>
    rw [hunpack] at h
    cases h
    exact unpackMessage_error hunpack
  | ok r =>
    rw [hunpack] at h
    cases h

/-- A line that can be converted does not stop the loop. -/
theorem processLine_ok {line : List Char} (h : Convertible line) :
    ∃ out, processLine line = .ok out := by
  obtain ⟨r, hr⟩ := parse_ok_iff.mpr h
  rw [processLine, hr]
  match r with
  | none => exact ⟨none, rfl⟩
  | some (ts, canId, data) =>
    dsimp only
    cases hd : decode canId data with
    | error e => exact ⟨_, if_pos (decode_error hd)⟩
    | ok d => cases d with
      | none => exact ⟨none, rfl⟩
      | some d => exact ⟨_, rfl⟩

theorem main_singleton {line : List Char} {out : Option Printed} (h : processLine line = .ok out) :
    (main [line]).1 = out.toList := by
  simp [main, h]

theorem main_of_convertible {lines : List (List Char)} (h : ∀ line ∈ lines, Convertible line) :
    main lines = (lines.flatMap fun line => (main [line]).1, none) := by
  induction lines with
  | nil => rfl
  | cons line lines ih =>
    obtain ⟨hline, hlines⟩ := List.forall_mem_cons.mp h
    obtain ⟨out, hout⟩ := processLine_ok hline
    rw [main, hout, ih hlines, List.flatMap_cons, main_singleton hout]

/-- **When a log is processed to its end.** Every line is, exactly when each line that looks like a
frame has a timestamp that is one number and data that are whole bytes. -/
theorem readsAll_iff (lines : List (List Char)) :
    ReadsAll lines ↔ ∀ line ∈ lines, Convertible line := by
  constructor
  · intro h line hline
    exact parse_ok_iff.mp (h.parses line hline)
  · intro h
    have hmain := main_of_convertible h
    exact ⟨fun line hline => parse_ok_iff.mpr (h line hline), congrArg Prod.snd hmain,
      congrArg Prod.fst hmain⟩

/-- A timestamp with two points. -/
def twoPointsLine : List Char := "(1.2.3) can0 385##1010200000000000000010200".toList

/-- A heartbeat. -/
def heartbeatLine : List Char := "(0.5) can0 385##1010200000000000000010200".toList

/-- The heartbeat after it is never printed. -/
theorem not_readsAll_two_points : ¬ReadsAll [twoPointsLine, heartbeatLine] := fun h =>
  absurd h.ends (by decide +kernel)

end Mirror
end Rjs

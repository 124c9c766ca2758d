import Mathlib.Data.List.DropRight
import RobotJointStack.Lib.Hex
import RobotJointStack.Lib.Regex
import RobotJointStack.Protocol.Types

/-!
# Tools.Candump

Frames as lines of text: `print_frame` of `dump_frames.c` writes them and `parse_candump_line` of
`rjs_protocol.py` reads them. Python's white space and digits are those of Unicode; a timestamp is
the decimal number that is written, before it is rounded to a float.

* `parse_iff`: a line is read exactly when it is made of the parts of a `CandumpLine`, and then
  these parts are what is read.
-/

namespace Rjs
namespace Candump

/-! ## Python's texts -/

/-- `str.isspace`, and `\s` of a pattern. -/
def isSpace (c : Char) : Bool :=
  [0x09, 0x0A, 0x0B, 0x0C, 0x0D, 0x1C, 0x1D, 0x1E, 0x1F, 0x20, 0x85, 0xA0, 0x1680, 0x2000, 0x2001,
    0x2002, 0x2003, 0x2004, 0x2005, 0x2006, 0x2007, 0x2008, 0x2009, 0x200A, 0x2028, 0x2029, 0x202F,
    0x205F, 0x3000].contains c.toNat

/-- The zeros of the decimal digits of Unicode; the other nine of each script follow its zero. -/
def decimalZeros : List Nat :=
  [0x30, 0x660, 0x6F0, 0x7C0, 0x966, 0x9E6, 0xA66, 0xAE6, 0xB66, 0xBE6, 0xC66, 0xCE6, 0xD66, 0xDE6,
    0xE50, 0xED0, 0xF20, 0x1040, 0x1090, 0x17E0, 0x1810, 0x1946, 0x19D0, 0x1A80, 0x1A90, 0x1B50,
    0x1BB0, 0x1C40, 0x1C50, 0xA620, 0xA8D0, 0xA900, 0xA9D0, 0xA9F0, 0xAA50, 0xABF0, 0xFF10, 0x104A0,
    0x10D30, 0x11066, 0x110F0, 0x11136, 0x111D0, 0x112F0, 0x11450, 0x114D0, 0x11650, 0x116C0,
    0x11730, 0x118E0, 0x11950, 0x11C50, 0x11D50, 0x11DA0, 0x16A60, 0x16AC0, 0x16B50, 0x1D7CE,
    0x1D7D8, 0x1D7E2, 0x1D7EC, 0x1D7F6, 0x1E140, 0x1E2F0, 0x1E950, 0x1FBF0]

def decimalDigit? (c : Char) : Option Nat :=
  decimalZeros.findSome? fun base =>
    if base ≤ c.toNat ∧ c.toNat < base + 10 then some (c.toNat - base) else none

/-- `[\d.]`. -/
def isStamp (c : Char) : Bool := (decimalDigit? c).isSome || c == '.'

/-- `str.strip`. -/
def strip (line : List Char) : List Char := (line.dropWhile isSpace).rdropWhile isSpace

/-- `mantissa / 10 ^ places`. -/
structure Timestamp where
  mantissa : Nat
  places : Nat
deriving DecidableEq, Repr

def decimalValue (text : List Char) : Nat :=
  text.foldl (fun n c => 10 * n + (decimalDigit? c).getD 0) 0

/-- `float` on digits and points: at least one of those, at most one of these. -/
def float? (text : List Char) : Option Timestamp :=
  let (whole, rest) := text.span (· != '.')
  match rest with
  | [] => if whole.isEmpty then none else some ⟨decimalValue whole, 0⟩
  | _ :: fraction =>
    if '.' ∈ fraction ∨ (whole ++ fraction).isEmpty then none
    else some ⟨decimalValue (whole ++ fraction), fraction.length⟩

/-! ## Reading a line -/

/-- `_CANDUMP`. -/
def pattern : Regex Char :=
  .seq (.one (· == '(')) <| .seq (.group "ts" (.rep isStamp 1 none)) <| .seq (.one (· == ')')) <|
  .seq (.rep isSpace 1 none) <| .seq (.group "ifc" (.rep (!isSpace ·) 1 none)) <|
  .seq (.rep isSpace 1 none) <| .seq (.group "id" (.rep Hex.isDigit 3 (some 8))) <|
  .seq (.one (· == '#')) <| .seq (.opt (.group "fd" (.seq (.one (· == '#')) (.one Hex.isDigit)))) <|
  .group "data" (.rep Hex.isDigit 0 none)

/-- What `float` and `bytes.fromhex` raise. -/
inductive ParseError where
  | float (text : List Char)
  | fromhex (text : List Char)
deriving DecidableEq, Repr

def parseCandumpLine (line : List Char) :
    Except ParseError (Option (Timestamp × Nat × List UInt8)) :=
  match pattern.matchStart (strip line) with
  | none => .ok none
  | some m =>
    let ts := (m.lookup "ts").getD []
    let data := (m.lookup "data").getD []
    match float? ts, Hex.bytes? data with
    | none, _ => .error (.float ts)
    | some _, none => .error (.fromhex data)
    | some t, some bytes => .ok (some (t, Hex.value ((m.lookup "id").getD []), bytes))

/-! ## Writing a line -/

/-- `print_frame`. -/
def printFrame (f : CanFrame) : List Char :=
  "(0.000000) vcan0 ".toList ++ Hex.padded 3 f.id.toNat ++ ['#', '#', if f.brs then '1' else '0'] ++
    (f.data.toList.take f.len.toNat).flatMap (fun b => Hex.padded 2 b.toNat) ++ ['\n']

/-! ## The parts of a line -/

/-- A line of text in parts, the last of which the pattern leaves unread. -/
structure CandumpLine where
  ts : List Char
  gap : List Char
  ifc : List Char
  gap' : List Char
  id : List Char
  fd : List Char
  data : List Char
  rest : List Char

def CandumpLine.text (c : CandumpLine) : List Char :=
  '(' :: (c.ts ++ ')' :: (c.gap ++ (c.ifc ++ (c.gap' ++ (c.id ++ '#' ::
    (c.fd ++ (c.data ++ c.rest)))))))

/-- The flags nibble of a CAN FD frame. -/
def IsFd (fd : List Char) : Prop := ∃ h, fd = ['#', h] ∧ Hex.isDigit h = true

structure CandumpLine.WellFormed (c : CandumpLine) : Prop where
  ts : c.ts ≠ [] ∧ ∀ x ∈ c.ts, isStamp x = true
  gap : c.gap ≠ [] ∧ ∀ x ∈ c.gap, isSpace x = true
  ifc : c.ifc ≠ [] ∧ ∀ x ∈ c.ifc, isSpace x = false
  gap' : c.gap' ≠ [] ∧ ∀ x ∈ c.gap', isSpace x = true
  id : (3 ≤ c.id.length ∧ c.id.length ≤ 8) ∧ ∀ x ∈ c.id, Hex.isDigit x = true
  fd : IsFd c.fd ∨ c.fd = [] ∧ ∀ h rest, c.data ++ c.rest = '#' :: h :: rest → Hex.isDigit h = false
  data : ∀ x ∈ c.data, Hex.isDigit x = true
  rest : ∀ x ∈ c.rest.head?, Hex.isDigit x = false

/-- The groups of a match. -/
def CandumpLine.groups (c : CandumpLine) : Regex.Groups Char :=
  [("ts", c.ts), ("ifc", c.ifc), ("id", c.id)] ++ (if c.fd = [] then [] else [("fd", c.fd)]) ++
    [("data", c.data)]

/-! ## What the pattern matches -/

theorem beq_false {p : Char → Bool} {x c : Char} (hx : p x = true) (hc : p c = false) :
    (x == c) = false := by
  refine beq_false_of_ne fun he => ?_
  rw [he, hc] at hx
  cases hx

theorem not_isDigit_of_isSpace {x : Char} (h : isSpace x = true) : Hex.isDigit x = false := by
  refine Bool.eq_false_iff.mpr fun hd => ?_
  obtain ⟨hlo, hhi⟩ := Hex.isDigit_bounds hd
  simp only [isSpace, List.contains_eq_mem, List.mem_cons, List.not_mem_nil, or_false,
    decide_eq_true_eq] at h
  omega

theorem not_isSpace_of_isDigit {x : Char} (h : Hex.isDigit x = true) : isSpace x = false :=
  Bool.eq_false_iff.mpr fun hs => Bool.eq_false_iff.mp (not_isDigit_of_isSpace hs) h

/-- The flags and the data, where nothing follows them in the pattern. -/
theorem exec_tail {t : List Char} {g g' : Regex.Groups Char} :
    (Regex.opt (.group "fd" (.seq (.one (· == '#')) (.one Hex.isDigit)))).exec t g (fun rest g =>
        (Regex.group "data" (.rep Hex.isDigit 0 none)).exec rest g fun _ g => some g) = some g' ↔
      ∃ fd data rest, t = fd ++ (data ++ rest) ∧
        (IsFd fd ∨ fd = [] ∧
          ∀ h rest', data ++ rest = '#' :: h :: rest' → Hex.isDigit h = false) ∧
        Regex.Longest Hex.isDigit data rest ∧
        g' = g ++ (if fd = [] then [] else [("fd", fd)]) ++ [("data", data)] := by
  have hdata : ∀ t (g g' : Regex.Groups Char),
      (Regex.group "data" (.rep Hex.isDigit 0 none)).exec t g (fun _ g => some g) = some g' ↔
        ∃ data rest, t = data ++ rest ∧ Regex.Longest Hex.isDigit data rest ∧
          g' = g ++ [("data", data)] := by
    intro t g g'
    refine (Regex.exec_group_rep_of_total fun _ _ => rfl).trans ?_
    simp only [Option.some.injEq, eq_comm]
  have hfd : ∀ {k : List Char → Regex.Groups Char → Option (Regex.Groups Char)} {g'},
      (Regex.group "fd" (.seq (.one (· == '#')) (.one Hex.isDigit))).exec t g k = some g' ↔
        ∃ h rest, t = '#' :: h :: rest ∧ Hex.isDigit h = true ∧
          k rest (g ++ [("fd", ['#', h])]) = some g' := by
    intro k g'
    have htake : ∀ (d : Char) rest, ('#' :: d :: rest).take
        (('#' :: d :: rest).length - rest.length) = ['#', d] :=
      fun d rest => Regex.consumed ['#', d] rest
    rw [Regex.exec, Regex.exec_seq, Regex.exec_one]
    constructor
    · rintro ⟨x, t', rfl, hx, h⟩
      obtain rfl : x = '#' := eq_of_beq hx
      obtain ⟨d, rest, rfl, hd, h⟩ := Regex.exec_one.mp h
      rw [htake] at h
      exact ⟨d, rest, rfl, hd, h⟩
    · rintro ⟨d, rest, rfl, hd, h⟩
      refine ⟨'#', d :: rest, rfl, rfl, Regex.exec_one.mpr ⟨d, rest, rfl, hd, ?_⟩⟩
      rw [htake, h]
  rw [Regex.exec_opt]
  constructor
  · intro h
    cases h with
    | inl h =>
      obtain ⟨d, rest, rfl, hd, h⟩ := hfd.mp h
      obtain ⟨data, rest, rfl, hrun, rfl⟩ := (hdata _ _ _).mp h
      exact ⟨['#', d], data, rest, rfl, .inl ⟨d, rfl, hd⟩, hrun, by simp⟩
    | inr h =>
      obtain ⟨data, rest, rfl, hrun, rfl⟩ := (hdata _ _ _).mp h.2
      refine ⟨[], data, rest, rfl, .inr ⟨rfl, fun d rest' he => ?_⟩, hrun, by simp⟩
      -- flags would have been read as flags
      by_contra hd
      rw [he] at h hfd
      have htotal : ∀ t (g : Regex.Groups Char),
          ((Regex.group "data" (.rep Hex.isDigit 0 none)).exec t g (fun _ g => some g)).isSome :=
        fun t g => Regex.isSome_exec_group_rep fun _ _ => rfl
      obtain ⟨g', hg'⟩ := Option.isSome_iff_exists.mp (htotal rest' (g ++ [("fd", ['#', d])]))
      exact Option.eq_none_iff_forall_ne_some.mp h.1 g'
        (hfd.mpr ⟨d, rest', rfl, Bool.eq_true_of_not_eq_false hd, hg'⟩)
  · rintro ⟨fd, data, rest, rfl, ⟨d, rfl, hd⟩ | ⟨rfl, hno⟩, hrun, rfl⟩
    · exact .inl (hfd.mpr ⟨d, _, rfl, hd, (hdata _ _ _).mpr ⟨data, rest, rfl, hrun, by simp⟩⟩)
    · refine .inr ⟨Option.eq_none_iff_forall_ne_some.mpr fun g' h => ?_,
        (hdata _ _ _).mpr ⟨data, rest, rfl, hrun, by simp⟩⟩
      obtain ⟨d, rest', he, hd, -⟩ := hfd.mp h
      rw [hno d rest' he] at hd
      cases hd

theorem head_append {p : Char → Bool} {l l' : List Char} (hl : l ≠ [])
    (h : ∀ x ∈ l, p x = false) : ∀ x ∈ (l ++ l').head?, p x = false := by
  intro x hx
  rw [List.head?_append_of_ne_nil l hl] at hx
  exact h x (List.mem_of_mem_head? hx)

theorem head_cons {p : Char → Bool} {c : Char} {l : List Char} (h : p c = false) :
    ∀ x ∈ (c :: l).head?, p x = false := by
  intro x hx
  cases hx
  exact h

/-! No part of the pattern can take what the next part needs, so there is one way to match. -/

theorem stamp_beq_close {x : Char} (h : isStamp x = true) : (x == ')') = false :=
  beq_false h (by decide)

theorem digit_beq_hash {x : Char} (h : Hex.isDigit x = true) : (x == '#') = false :=
  beq_false h (by decide)

theorem not_word {x : Char} (h : isSpace x = true) : (!isSpace x) = false := by rw [h]; rfl

theorem not_space {x : Char} (h : (!isSpace x) = true) : isSpace x = false := by simpa using h

theorem wellFormed_of_match {text : List Char} {g : Regex.Groups Char}
    (h0 : pattern.matchStart text = some g) :
    ∃ c : CandumpLine, c.WellFormed ∧ text = c.text ∧ g = c.groups := by
  simp only [pattern, Regex.matchStart, Regex.exec_seq] at h0
  obtain ⟨x, _, rfl, hx, h1⟩ := Regex.exec_one.mp h0
  obtain rfl : x = '(' := eq_of_beq hx
  obtain ⟨ts, _, rfl, hts, hnts, h2⟩ := (Regex.exec_group_rep (by
    exact fun x xs g hx => Regex.exec_one_none (stamp_beq_close hx))).mp h1
  obtain ⟨x, _, rfl, hx, h3⟩ := Regex.exec_one.mp h2
  obtain rfl : x = ')' := eq_of_beq hx
  obtain ⟨gap, _, rfl, hgap, hngap, h4⟩ := (Regex.exec_rep (by
    exact fun x xs g hx => Regex.exec_group_rep_none (by decide) (not_word hx))).mp h3
  obtain ⟨ifc, _, rfl, hifc, hnifc, h5⟩ := (Regex.exec_group_rep (by
    exact fun x xs g hx => Regex.exec_rep_none (by decide) (not_space hx))).mp h4
  obtain ⟨gap', _, rfl, hgap', hngap', h6⟩ := (Regex.exec_rep (by
    exact fun x xs g hx => Regex.exec_group_rep_none (by decide) (not_isDigit_of_isSpace hx))).mp h5
  obtain ⟨id, _, rfl, hid, hnid, h7⟩ := (Regex.exec_group_rep (by
    exact fun x xs g hx => Regex.exec_one_none (digit_beq_hash hx))).mp h6
  obtain ⟨x, _, rfl, hx, h8⟩ := Regex.exec_one.mp h7
  obtain rfl : x = '#' := eq_of_beq hx
  obtain ⟨fd, data, rest, rfl, hfd, hrun, rfl⟩ := exec_tail.mp h8
  have hne : ∀ {l : List Char} {lo hi}, Regex.Within (lo + 1) hi l.length → l ≠ [] :=
    fun hn => List.ne_nil_of_length_pos (Nat.lt_of_lt_of_le (Nat.succ_pos _) hn.1)
  refine ⟨⟨ts, gap, ifc, gap', id, fd, data, rest⟩,
    ⟨⟨hne hnts, hts.1⟩, ⟨hne hngap, hgap.1⟩, ⟨hne hnifc, fun x hx => not_space (hifc.1 x hx)⟩,
      ⟨hne hngap', hgap'.1⟩, ⟨⟨hnid.1, hnid.2 8 rfl⟩, hid.1⟩, hfd, hrun.1, hrun.2⟩, rfl, ?_⟩
  simp [CandumpLine.groups]

theorem match_of_wellFormed {c : CandumpLine} (hc : c.WellFormed) :
    pattern.matchStart c.text = some c.groups := by
  have hlen : ∀ {l : List Char}, l ≠ [] → Regex.Within 1 none l.length :=
    fun hl => ⟨List.length_pos_of_ne_nil hl, by simp⟩
  simp only [pattern, Regex.matchStart, Regex.exec_seq, CandumpLine.text]
  refine Regex.exec_one.mpr ⟨_, _, rfl, rfl, ?_⟩
  refine (Regex.exec_group_rep (by
    exact fun x xs g hx => Regex.exec_one_none (stamp_beq_close hx))).mpr
    ⟨c.ts, _, rfl, ⟨hc.ts.2, head_cons (by decide)⟩, hlen hc.ts.1, ?_⟩
  refine Regex.exec_one.mpr ⟨_, _, rfl, rfl, ?_⟩
  refine (Regex.exec_rep (by
    exact fun x xs g hx => Regex.exec_group_rep_none (by decide) (not_word hx))).mpr
    ⟨c.gap, _, rfl, ⟨hc.gap.2, head_append hc.ifc.1 hc.ifc.2⟩, hlen hc.gap.1, ?_⟩
  refine (Regex.exec_group_rep (by
    exact fun x xs g hx => Regex.exec_rep_none (by decide) (not_space hx))).mpr
    ⟨c.ifc, _, rfl, ⟨fun x hx => by simp [hc.ifc.2 x hx],
      head_append hc.gap'.1 fun x hx => not_word (hc.gap'.2 x hx)⟩, hlen hc.ifc.1, ?_⟩
  have hidne : c.id ≠ [] := List.ne_nil_of_length_pos (Nat.lt_of_lt_of_le (by decide) hc.id.1.1)
  refine (Regex.exec_rep (by
    exact fun x xs g hx => Regex.exec_group_rep_none (by decide) (not_isDigit_of_isSpace hx))).mpr
    ⟨c.gap', _, rfl, ⟨hc.gap'.2, head_append hidne fun x hx =>
      not_isSpace_of_isDigit (hc.id.2 x hx)⟩, hlen hc.gap'.1, ?_⟩
  refine (Regex.exec_group_rep (by
    exact fun x xs g hx => Regex.exec_one_none (digit_beq_hash hx))).mpr
    ⟨c.id, _, rfl, ⟨hc.id.2, head_cons (by decide)⟩, ⟨hc.id.1.1, fun m hm => ?_⟩, ?_⟩
  · cases hm
    exact hc.id.1.2
  · refine Regex.exec_one.mpr ⟨_, _, rfl, rfl, ?_⟩
    refine exec_tail.mpr ⟨c.fd, c.data, c.rest, rfl, hc.fd, ⟨hc.data, hc.rest⟩, ?_⟩
    simp [CandumpLine.groups]

theorem lookup_groups (c : CandumpLine) :
    c.groups.lookup "ts" = some c.ts ∧ c.groups.lookup "id" = some c.id ∧
      c.groups.lookup "data" = some c.data := by
  unfold CandumpLine.groups
  refine ⟨rfl, rfl, ?_⟩
  split <;> rfl

theorem parse_iff {line : List Char} {ts : Timestamp} {id : Nat} {data : List UInt8} :
    parseCandumpLine line = .ok (some (ts, id, data)) ↔
      ∃ c : CandumpLine, c.WellFormed ∧ strip line = c.text ∧ float? c.ts = some ts ∧
        Hex.value c.id = id ∧ Hex.bytes? c.data = some data := by
  unfold parseCandumpLine
  constructor
  · intro h
    split at h
    · cases h
    · rename_i m hm
      obtain ⟨c, hc, htext, rfl⟩ := wellFormed_of_match hm
      obtain ⟨hts, hid, hdata⟩ := lookup_groups c
      simp only [hts, hid, hdata, Option.getD_some] at h
      split at h
      · cases h
      · cases h
      · rename_i t bytes hfloat hbytes
        cases h
        exact ⟨c, hc, htext, hfloat, rfl, hbytes⟩
  · rintro ⟨c, hc, htext, hfloat, rfl, hbytes⟩
    obtain ⟨hts, hid, hdata⟩ := lookup_groups c
    rw [htext, match_of_wellFormed hc]
    simp only [hts, hid, hdata, Option.getD_some, hfloat, hbytes]

/-! ## Reading what has been written -/

/-- The parts of a printed line. -/
def printed (f : CanFrame) : CandumpLine where
  ts := "0.000000".toList
  gap := [' ']
  ifc := "vcan0".toList
  gap' := [' ']
  id := Hex.padded 3 f.id.toNat
  fd := ['#', if f.brs then '1' else '0']
  data := (f.data.toList.take f.len.toNat).flatMap fun b => Hex.padded 2 b.toNat
  rest := []

theorem isDigit_brs (f : CanFrame) : Hex.isDigit (if f.brs then '1' else '0') = true := by
  split <;> rfl

theorem isDigit_printed_data (f : CanFrame) : ∀ x ∈ (printed f).data, Hex.isDigit x = true := by
  intro x hx
  obtain ⟨b, -, hb⟩ := List.mem_flatMap.mp hx
  exact Hex.isDigit_padded 2 b.toNat x hb

theorem wellFormed_printed (f : CanFrame) : (printed f).WellFormed where
  ts := ⟨(by decide : "0.000000".toList ≠ []), List.all_eq_true.mp rfl⟩
  gap := ⟨List.cons_ne_nil _ _, List.all_eq_true.mp rfl⟩
  ifc := by
    have hall : ∀ x ∈ "vcan0".toList, (!isSpace x) = true := List.all_eq_true.mp rfl
    exact ⟨(by decide : "vcan0".toList ≠ []), fun x hx => not_space (hall x hx)⟩
  gap' := ⟨List.cons_ne_nil _ _, List.all_eq_true.mp rfl⟩
  id := by
    have hid : f.id.toNat < 16 ^ (3 + 1) := f.id.toNat_lt
    have hlen := Hex.length_padded 3 hid (by decide)
    exact ⟨⟨hlen.1, hlen.2.trans (by decide)⟩, Hex.isDigit_padded 3 f.id.toNat⟩
  fd := .inl ⟨_, rfl, isDigit_brs f⟩
  data := isDigit_printed_data f
  rest := nofun

theorem printFrame_eq (f : CanFrame) : printFrame f = (printed f).text ++ ['\n'] := by
  have hhead : "(0.000000) vcan0 ".toList =
      '(' :: ("0.000000".toList ++ ')' :: ([' '] ++ ("vcan0".toList ++ [' ']))) := by decide
  unfold printFrame CandumpLine.text printed
  rw [hhead]
  simp only [List.append_assoc, List.cons_append, List.nil_append, List.append_nil]

/-- A printed line ends with a digit. -/
theorem getLast_printed (f : CanFrame) (h : (printed f).text ≠ []) :
    isSpace ((printed f).text.getLast h) = false := by
  let tail := (printed f).fd ++ ((printed f).data ++ (printed f).rest)
  have hsplit : ∃ front, (printed f).text = front ++ tail :=
    ⟨'(' :: ((printed f).ts ++ ')' :: ((printed f).gap ++ ((printed f).ifc ++ ((printed f).gap' ++
      ((printed f).id ++ ['#']))))), by
        simp only [CandumpLine.text, tail, List.append_assoc, List.cons_append, List.nil_append]⟩
  have htail : ∀ x ∈ tail, isSpace x = false := by
    intro x hx
    cases List.mem_append.mp hx with
    | inl hx =>
      cases List.mem_cons.mp hx with
      | inl hx => rw [hx]; rfl
      | inr hx =>
        rw [List.mem_singleton.mp hx]
        exact not_isSpace_of_isDigit (isDigit_brs f)
    | inr hx =>
      cases List.mem_append.mp hx with
      | inl hx => exact not_isSpace_of_isDigit (isDigit_printed_data f x hx)
      | inr hx => cases hx
  have hne : tail ≠ [] := List.cons_ne_nil _ _
  obtain ⟨front, hfront⟩ := hsplit
  have hlast : (printed f).text.getLast h = tail.getLast hne := by
    simp only [hfront]
    exact List.getLast_append_of_ne_nil _ hne
  rw [hlast]
  exact htail _ (List.getLast_mem hne)

/-- What is left of the line without its newline. -/
theorem strip_printFrame (f : CanFrame) : strip (printFrame f) = (printed f).text := by
  have hfirst : ((printed f).text ++ ['\n']).dropWhile isSpace = (printed f).text ++ ['\n'] :=
    List.dropWhile_cons_of_neg (by decide)
  rw [printFrame_eq, strip, hfirst, List.rdropWhile_concat_pos _ _ _ (by decide),
    List.rdropWhile_eq_self_iff]
  intro h
  rw [getLast_printed f h]
  exact Bool.false_ne_true

theorem parse_printFrame (f : CanFrame) : parseCandumpLine (printFrame f) =
    .ok (some (⟨0, 6⟩, f.id.toNat, f.data.toList.take f.len.toNat)) :=
  parse_iff.mpr ⟨printed f, wellFormed_printed f, strip_printFrame f,
    (by decide : float? "0.000000".toList = some ⟨0, 6⟩), Hex.value_padded 3 f.id.toNat,
    Hex.bytes_padded _⟩

end Candump
end Rjs

import RobotJointStack.App.Console
import RobotJointStack.App.Node
import RobotJointStack.Ui.Legible

/-!
# App.LogText

The texts of the lines that `app.c` logs about the bus, and rows of lines on the console.

* `LogLine.text_injective`: a text tells which line it is, with all its numbers.
* `lines_injective`, `forall₂_shown`: a row of texts without line ends can be taken apart again.
-/

namespace Rjs

open StatusScreen

/-- A digit of `%x`. -/
def hexDigit (n : Nat) : UInt8 := UInt8.ofNat (if n < 10 then 48 + n else 87 + n)

/-- `%0*x` of a number with no more digits than that. -/
def fixedHex : Nat → Nat → List UInt8
  | 0, _ => []
  | width + 1, n => fixedHex width (n / 16) ++ [hexDigit (n % 16)]

/-- The text of a line, as the formats in `app.c` give it. -/
def LogLine.text : LogLine → List UInt8
  | .joined node major minor patch =>
    ascii "[bus] node " ++ decimal node.toNat ++ ascii " joined (fw " ++ decimal major.toNat ++
      ascii "." ++ decimal minor.toNat ++ ascii "." ++ decimal patch.toNat ++ ascii ")"
  | .lost node timeoutMs =>
    ascii "[bus] node " ++ decimal node.toNat ++ ascii " LOST (no heartbeat for " ++
      decimal timeoutMs.toNat ++ ascii " ms)"
  | .rebooted node => ascii "[bus] node " ++ decimal node.toNat ++ ascii " rebooted"
  | .emergency node code detail =>
    ascii "[bus] EMERGENCY from node " ++ decimal node.toNat ++ ascii ": code 0x" ++
      fixedHex 4 code.toNat ++ ascii " detail 0x" ++ fixedHex 8 detail.toNat

/-! ## Numbers -/

def IsDigit (c : UInt8) : Prop := 48 ≤ c ∧ c ≤ 57

instance : DecidablePred IsDigit := fun _ => inferInstanceAs (Decidable (_ ∧ _))

theorem decimal_eq (n : Nat) :
    decimal n = (Nat.toDigits 10 n).map fun c => UInt8.ofNat c.toNat := by
  show (String.ofList (Nat.toDigits 10 n)).toList.map (fun c => UInt8.ofNat c.toNat) = _
  rw [String.toList_ofList]

/-- A digit as a byte. -/
theorem toNat_digit {n : Nat} {c : Char} (h : c ∈ Nat.toDigits 10 n) :
    (UInt8.ofNat c.toNat).toNat = c.toNat ∧ 48 ≤ c.toNat ∧ c.toNat ≤ 57 := by
  have hdigit := Char.isDigit_iff_toNat.mp (Nat.isDigit_of_mem_toDigits (by decide) (by decide) h)
  change 48 ≤ c.toNat ∧ c.toNat ≤ 57 at hdigit
  exact ⟨UInt8.toNat_ofNat_of_lt' (show c.toNat < 256 by omega), hdigit⟩

theorem isDigit_of_mem_decimal {n : Nat} {c : UInt8} (h : c ∈ decimal n) : IsDigit c := by
  rw [decimal_eq] at h
  obtain ⟨d, hd, rfl⟩ := List.mem_map.mp h
  obtain ⟨hval, hlow, hhigh⟩ := toNat_digit hd
  rw [IsDigit, UInt8.le_iff_toNat_le, UInt8.le_iff_toNat_le, hval]
  exact ⟨hlow, hhigh⟩

theorem decimal_injective {m n : Nat} (h : decimal m = decimal n) : m = n := by
  have hread : ∀ k : Nat, (decimal k).map (fun b => Char.ofNat b.toNat) = Nat.toDigits 10 k := by
    intro k
    rw [decimal_eq, List.map_map]
    refine (List.map_congr_left fun c hc => ?_).trans (List.map_id _)
    show Char.ofNat (UInt8.ofNat c.toNat).toNat = c
    rw [(toNat_digit hc).1, Char.ofNat_toNat]
  have hdigits := (hread m).symm.trans ((congrArg _ h).trans (hread n))
  rw [← Nat.ofDigitChars_ten_toDigits (n := m), hdigits, Nat.ofDigitChars_ten_toDigits]

/-- A text that cannot go on a number. -/
def breaks : List UInt8 → Bool
  | c :: _ => ¬IsDigit c
  | [] => false

theorem breaks_append {e : List UInt8} (h : breaks e = true) (u : List UInt8) :
    breaks (e ++ u) = true := by
  cases e with
  | nil => cases h
  | cons c e => exact h

theorem takeWhile_decimal (k : Nat) {e : List UInt8} (he : e = [] ∨ breaks e = true) :
    (decimal k ++ e).takeWhile (IsDigit ·) = decimal k := by
  rw [List.takeWhile_append_of_pos fun b hb => decide_eq_true (isDigit_of_mem_decimal hb)]
  cases e with
  | nil => exact List.append_nil _
  | cons c e =>
    have hc : ¬IsDigit c := by simpa [breaks] using he
    rw [List.takeWhile_cons_of_neg (by simpa using hc), List.append_nil]

/-- A number with such a text behind it can be read off. -/
theorem decimal_append {m n : Nat} {a b s t : List UInt8} (ha : breaks a = true)
    (hb : breaks b = true) (h : decimal m ++ (a ++ s) = decimal n ++ (b ++ t)) :
    m = n ∧ a ++ s = b ++ t := by
  have hmn : decimal m = decimal n := by
    rw [← takeWhile_decimal m (.inr (breaks_append ha s)), h,
      takeWhile_decimal n (.inr (breaks_append hb t))]
  rw [hmn] at h
  exact ⟨decimal_injective hmn, List.append_cancel_left h⟩

theorem hexDigit_injective : ∀ m < 16, ∀ n < 16, hexDigit m = hexDigit n → m = n := by decide

theorem length_fixedHex (width n : Nat) : (fixedHex width n).length = width := by
  induction width generalizing n with
  | zero => rfl
  | succ width ih => rw [fixedHex, List.length_append, ih, List.length_singleton]

theorem fixedHex_injective {width m n : Nat} (hm : m < 16 ^ width) (hn : n < 16 ^ width)
    (h : fixedHex width m = fixedHex width n) : m = n := by
  induction width generalizing m n with
  | zero => omega
  | succ width ih =>
    rw [fixedHex, fixedHex] at h
    obtain ⟨hhigh, hlow⟩ := List.append_inj' h rfl
    rw [Nat.pow_succ] at hm hn
    have hdiv := ih (Nat.div_lt_of_lt_mul (by omega)) (Nat.div_lt_of_lt_mul (by omega)) hhigh
    have hmod := hexDigit_injective _ (Nat.mod_lt m (by decide)) _ (Nat.mod_lt n (by decide))
      (List.cons.inj hlow).1
    omega

/-- As much of a plain text as the logger shows. -/
theorem shown_plain {text : List UInt8} (h : PlainText text) :
    Console.shown text = text.take 117 := by
  show (text.take 117).takeWhile (· ≠ 0) = text.take 117
  rw [List.takeWhile_eq_self_iff]
  intro c hc
  refine decide_eq_true ?_
  rintro rfl
  exact absurd (h 0 (List.mem_of_mem_take hc)).printable.1 (by decide)

/-! ## Texts -/

namespace LogLine

/-- Behind the number of the node, the three lines about a peer differ. -/
theorem peer_text {m n : UInt8} {a b s t : List UInt8} (ha : breaks a = true) (hb : breaks b = true)
    (h : ascii "[bus] node " ++ (decimal m.toNat ++ (a ++ s)) =
      ascii "[bus] node " ++ (decimal n.toNat ++ (b ++ t))) : m = n ∧ a ++ s = b ++ t := by
  obtain ⟨hnode, hrest⟩ := decimal_append ha hb (List.append_cancel_left h)
  exact ⟨UInt8.toNat_inj.mp hnode, hrest⟩

theorem joined_text {node major minor patch node' major' minor' patch' : UInt8}
    (h : text (.joined node major minor patch) = text (.joined node' major' minor' patch')) :
    joined node major minor patch = .joined node' major' minor' patch' := by
  simp only [text, List.append_assoc] at h
  obtain ⟨hnode, hfw⟩ := peer_text (by decide) (by decide) h
  obtain ⟨hmajor, hrest⟩ := decimal_append (by decide) (by decide) (List.append_cancel_left hfw)
  obtain ⟨hminor, hlast⟩ := decimal_append (by decide) (by decide) (List.append_cancel_left hrest)
  rw [← List.append_nil (ascii ")")] at hlast
  obtain ⟨hpatch, -⟩ := decimal_append (by decide) (by decide) (List.append_cancel_left hlast)
  rw [hnode, UInt8.toNat_inj.mp hmajor, UInt8.toNat_inj.mp hminor, UInt8.toNat_inj.mp hpatch]

theorem lost_text {node node' : UInt8} {timeoutMs timeoutMs' : UInt32}
    (h : text (.lost node timeoutMs) = text (.lost node' timeoutMs')) :
    lost node timeoutMs = .lost node' timeoutMs' := by
  simp only [text, List.append_assoc] at h
  obtain ⟨hnode, hrest⟩ := peer_text (by decide) (by decide) h
  rw [← List.append_nil (ascii " ms)")] at hrest
  obtain ⟨htimeout, -⟩ := decimal_append (by decide) (by decide) (List.append_cancel_left hrest)
  rw [hnode, UInt32.toNat_inj.mp htimeout]

theorem rebooted_text {node node' : UInt8} (h : text (.rebooted node) = text (.rebooted node')) :
    rebooted node = .rebooted node' := by
  simp only [text, List.append_assoc] at h
  rw [← List.append_nil (ascii " rebooted")] at h
  rw [(peer_text (by decide) (by decide) h).1]

theorem emergency_text {node node' : UInt8} {code code' : UInt16} {detail detail' : UInt32}
    (h : text (.emergency node code detail) = text (.emergency node' code' detail')) :
    emergency node code detail = .emergency node' code' detail' := by
  simp only [text, List.append_assoc] at h
  obtain ⟨hnode, hrest⟩ := decimal_append (by decide) (by decide) (List.append_cancel_left h)
  obtain ⟨hcode, hlast⟩ := List.append_inj (List.append_cancel_left hrest)
    (by rw [length_fixedHex, length_fixedHex])
  have hdetail := List.append_cancel_left hlast
  rw [UInt8.toNat_inj.mp hnode,
    UInt16.toNat_inj.mp (fixedHex_injective code.toNat_lt code'.toNat_lt hcode),
    UInt32.toNat_inj.mp (fixedHex_injective detail.toNat_lt detail'.toNat_lt hdetail)]

/-- Two bytes of a text that tell what it is about: those behind the number of the peer. -/
def key (text : List UInt8) : List UInt8 := ((text.drop 11).dropWhile (IsDigit ·)).take 2

theorem key_peer {n : Nat} {a : List UInt8} (ha : breaks a = true) (hlen : 2 ≤ a.length)
    (s : List UInt8) : key (ascii "[bus] node " ++ (decimal n ++ (a ++ s))) = a.take 2 := by
  cases a with
  | nil => cases ha
  | cons c a =>
    rw [key, List.drop_left' (by decide),
      List.dropWhile_append_of_pos fun b hb => decide_eq_true (isDigit_of_mem_decimal hb),
      List.cons_append, List.dropWhile_cons_of_neg (by simpa [breaks] using ha), ← List.cons_append,
      List.take_append_of_le_length hlen]

def kind : LogLine → List UInt8
  | .joined .. => ascii " j"
  | .lost .. => ascii " L"
  | .rebooted .. => ascii " r"
  | .emergency .. => ascii "EN"

theorem key_text (l : LogLine) : key l.text = l.kind := by
  cases l with
  | joined node major minor patch =>
    simp only [text, List.append_assoc]
    rw [key_peer (by decide) (by decide)]
    rfl
  | lost node timeoutMs =>
    simp only [text, List.append_assoc]
    rw [key_peer (by decide) (by decide)]
    rfl
  | rebooted node =>
    simp only [text, List.append_assoc]
    rw [← List.append_nil (ascii " rebooted"), key_peer (by decide) (by decide)]
    rfl
  | emergency node code detail =>
    simp only [text, List.append_assoc]
    rfl

theorem text_injective : Function.Injective text := by
  intro l l' h
  have hkey := congrArg key h
  rw [key_text, key_text] at hkey
  cases l with
  | joined =>
    cases l' with
    | joined => exact joined_text h
    | _ => exact absurd hkey (by dsimp only [kind]; decide)
  | lost =>
    cases l' with
    | lost => exact lost_text h
    | _ => exact absurd hkey (by dsimp only [kind]; decide)
  | rebooted =>
    cases l' with
    | rebooted => exact rebooted_text h
    | _ => exact absurd hkey (by dsimp only [kind]; decide)
  | emergency =>
    cases l' with
    | emergency => exact emergency_text h
    | _ => exact absurd hkey (by dsimp only [kind]; decide)

/-! ## Lines -/

theorem plain_fixedHex (width n : Nat) : PlainText (fixedHex width n) := by
  have hdigit : ∀ k < 16, Plain (hexDigit k) := by decide
  induction width generalizing n with
  | zero => exact nofun
  | succ width ih =>
    refine (ih (n / 16)).append fun c hc => ?_
    rw [List.mem_singleton.mp hc]
    exact hdigit _ (Nat.mod_lt n (by decide))

theorem plain_text (l : LogLine) : PlainText l.text := by
  have hpeer : PlainText (ascii "[bus] node ") := by decide
  cases l with
  | joined node major minor patch =>
    have hjoined : PlainText (ascii " joined (fw ") := by decide
    exact ((((((hpeer.append (plain_decimal _)).append hjoined).append (plain_decimal _)).append
      (by decide)).append (plain_decimal _)).append (by decide)).append (plain_decimal _)
        |>.append (by decide)
  | lost node timeoutMs =>
    have hlost : PlainText (ascii " LOST (no heartbeat for ") := by decide
    exact (((hpeer.append (plain_decimal _)).append hlost).append (plain_decimal _)).append
      (by decide)
  | rebooted node => exact (hpeer.append (plain_decimal _)).append (by decide)
  | emergency node code detail =>
    have hemergency : PlainText (ascii "[bus] EMERGENCY from node ") := by decide
    exact ((((hemergency.append (plain_decimal _)).append (by decide)).append
      (plain_fixedHex _ _)).append (by decide)).append (plain_fixedHex _ _)

theorem length_decimal_le {n : Nat} (k : Nat) (hk : 0 < k) (h : n < 10 ^ k) :
    (decimal n).length ≤ k := by
  rw [decimal_eq, List.length_map]
  exact (Nat.length_toDigits_le_iff (by decide) hk).mpr h

theorem length_byte_le (x : UInt8) : (decimal x.toNat).length ≤ 3 :=
  length_decimal_le 3 (by decide) (by have := x.toNat_lt; omega)

/-- The longest lines are those about an emergency. -/
theorem length_text_le (l : LogLine) : l.text.length ≤ 60 := by
  cases l with
  | joined node major minor patch =>
    have hnode := length_byte_le node
    have hmajor := length_byte_le major
    have hminor := length_byte_le minor
    have hpatch := length_byte_le patch
    simp only [text, List.length_append, show (ascii "[bus] node ").length = 11 from rfl,
      show (ascii " joined (fw ").length = 12 from rfl, show (ascii ".").length = 1 from rfl,
      show (ascii ")").length = 1 from rfl]
    omega
  | lost node timeoutMs =>
    have hnode := length_byte_le node
    have htimeout := length_decimal_le 10 (by decide)
      (show timeoutMs.toNat < 10 ^ 10 by have := timeoutMs.toNat_lt; omega)
    simp only [text, List.length_append, show (ascii "[bus] node ").length = 11 from rfl,
      show (ascii " LOST (no heartbeat for ").length = 24 from rfl,
      show (ascii " ms)").length = 4 from rfl]
    omega
  | rebooted node =>
    have hnode := length_byte_le node
    simp only [text, List.length_append, show (ascii "[bus] node ").length = 11 from rfl,
      show (ascii " rebooted").length = 9 from rfl]
    omega
  | emergency node code detail =>
    have hnode := length_byte_le node
    simp only [text, List.length_append, length_fixedHex,
      show (ascii "[bus] EMERGENCY from node ").length = 26 from rfl,
      show (ascii ": code 0x").length = 9 from rfl,
      show (ascii " detail 0x").length = 10 from rfl]
    omega

end LogLine

/-- The bytes of a row of texts on the console. -/
def consoleLines (texts : List (List UInt8)) : List UInt8 := texts.flatMap (· ++ [13, 10])

theorem lines_injective {texts texts' : List (List UInt8)} (hplain : ∀ text ∈ texts, PlainText text)
    (hplain' : ∀ text ∈ texts', PlainText text) (h : consoleLines texts = consoleLines texts') :
    texts = texts' := by
  have htake : ∀ {text : List UInt8} {rest : List UInt8}, PlainText text →
      (text ++ 13 :: rest).takeWhile (· ≠ 13) = text := by
    intro text rest htext
    rw [List.takeWhile_append_of_pos, List.takeWhile_cons_of_neg (by simp), List.append_nil]
    intro c hc
    refine decide_eq_true ?_
    rintro rfl
    exact absurd (htext 13 hc).printable.1 (by decide)
  induction texts generalizing texts' with
  | nil =>
    cases texts' with
    | nil => rfl
    | cons text' texts' => simp [consoleLines] at h
  | cons text texts ih =>
    cases texts' with
    | nil => simp [consoleLines] at h
    | cons text' texts' =>
      simp only [consoleLines, List.flatMap_cons, List.append_assoc, List.cons_append,
        List.nil_append] at h
      have htext : text = text' := by
        rw [← htake (hplain text List.mem_cons_self), h,
          htake (hplain' text' List.mem_cons_self)]
      rw [htext] at h
      have hrest : consoleLines texts = consoleLines texts' :=
        (List.cons.inj (List.cons.inj (List.append_cancel_left h)).2).2
      rw [htext, ih (fun t ht => hplain t (List.mem_cons_of_mem _ ht))
        (fun t ht => hplain' t (List.mem_cons_of_mem _ ht)) hrest]

/-- Two rows of lines that look alike on the console look alike line by line. -/
theorem forall₂_shown {α : Type} {text : α → List UInt8} (hplain : ∀ a, PlainText (text a))
    {as bs : List α} (h : as.flatMap (fun a => Console.consoleText (text a)) =
      bs.flatMap fun a => Console.consoleText (text a)) :
    List.Forall₂ (fun a b => Console.shown (text a) = Console.shown (text b)) as bs := by
  have hlines : ∀ cs : List α, cs.flatMap (fun a => Console.consoleText (text a)) =
      consoleLines (cs.map fun a => Console.shown (text a)) := by
    intro cs
    rw [consoleLines, List.flatMap_map]
    rfl
  have hshown : ∀ cs : List α, ∀ line ∈ cs.map (fun a => Console.shown (text a)),
      PlainText line := by
    intro cs line hline
    obtain ⟨a, -, rfl⟩ := List.mem_map.mp hline
    rw [shown_plain (hplain a)]
    exact fun c hc => hplain a c (List.mem_of_mem_take hc)
  rw [hlines, hlines] at h
  have hmap := lines_injective (hshown as) (hshown bs) h
  rw [← List.forall₂_eq_eq_eq, List.forall₂_map_left_iff, List.forall₂_map_right_iff] at hmap
  exact hmap

end Rjs

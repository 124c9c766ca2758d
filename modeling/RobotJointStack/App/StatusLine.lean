import RobotJointStack.App.LogText
import RobotJointStack.App.View

/-!
# App.StatusLine

The line that `stats_task` logs once a second. With its numbers it can be longer than the logger
takes, and then its end is cut off.

* `fields_append`: numbers between fixed texts can be read off one after the other.
* `length_front_le`: the front of the line fits, whatever the numbers are.
* `status_line`: so eight of the thirteen numbers can always be read, and all of them unless they
  have more than 31 characters together.
-/

namespace Rjs

open StatusScreen

/-! ## Numbers between fixed texts -/

/-- A number with its sign. -/
def signed (x : Bool × Nat) : List UInt8 := (if x.1 then ascii "-" else []) ++ decimal x.2

/-- The numbers, each with a fixed text behind it. -/
def fields : List (List UInt8) → List (Bool × Nat) → List UInt8
  | text :: texts, x :: xs => signed x ++ (text ++ fields texts xs)
  | _, _ => []

theorem decimal_ne_minus {n : Nat} {s t : List UInt8} : decimal n ++ s ≠ 45 :: t := by
  intro h
  have hne : decimal n ≠ [] := by
    rw [decimal_eq, ne_eq, List.map_eq_nil_iff]
    exact Nat.toDigits_ne_nil
  obtain ⟨c, rest, hc⟩ := List.exists_cons_of_ne_nil hne
  rw [hc, List.cons_append] at h
  have hdigit := isDigit_of_mem_decimal (n := n) (c := c) (by rw [hc]; exact List.mem_cons_self)
  rw [(List.cons.inj h).1] at hdigit
  exact absurd hdigit (by decide)

theorem signed_append {x y : Bool × Nat} {a s t : List UInt8} (ha : breaks a = true)
    (h : signed x ++ (a ++ s) = signed y ++ (a ++ t)) : x = y ∧ s = t := by
  obtain ⟨neg, m⟩ := x
  obtain ⟨neg', n⟩ := y
  have hsame : neg = neg' := by
    cases neg with
    | true =>
      cases neg' with
      | true => rfl
      | false => exact absurd h.symm decimal_ne_minus
    | false =>
      cases neg' with
      | true => exact absurd h decimal_ne_minus
      | false => rfl
  subst hsame
  simp only [signed, List.append_assoc] at h
  obtain ⟨hmn, hrest⟩ := decimal_append ha ha (List.append_cancel_left h)
  exact ⟨congrArg (neg, ·) hmn, List.append_cancel_left hrest⟩

theorem fields_append {texts : List (List UInt8)} {xs ys : List (Bool × Nat)} {s t : List UInt8}
    (htexts : ∀ text ∈ texts, breaks text = true) (hx : xs.length = texts.length)
    (hy : ys.length = texts.length) (h : fields texts xs ++ s = fields texts ys ++ t) :
    xs = ys ∧ s = t := by
  induction texts generalizing xs ys with
  | nil =>
    obtain rfl := List.eq_nil_of_length_eq_zero hx
    obtain rfl := List.eq_nil_of_length_eq_zero hy
    exact ⟨rfl, h⟩
  | cons text texts ih =>
    obtain ⟨x, xs, rfl⟩ := List.exists_cons_of_length_eq_add_one hx
    obtain ⟨y, ys, rfl⟩ := List.exists_cons_of_length_eq_add_one hy
    simp only [fields, List.append_assoc] at h
    obtain ⟨hxy, hrest⟩ := signed_append (htexts text List.mem_cons_self) h
    obtain ⟨hxs, hst⟩ := ih (fun u hu => htexts u (List.mem_cons_of_mem text hu))
      (Nat.succ.inj hx) (Nat.succ.inj hy) hrest
    exact ⟨by rw [hxy, hxs], hst⟩

/-! ## The line -/

/-- What `stats_task` reads. -/
structure StatusReading where
  nodeId : UInt8
  millis : UInt32
  alivePeers : UInt8
  js : JointState
  stats : AppStats
  txBusy : UInt32
  cs : BusStatus

namespace StatusReading

variable (r : StatusReading)

/-- `pos_abs`. -/
def posAbs : UInt32 :=
  (if r.js.positionMdeg < 0 then -r.js.positionMdeg else r.js.positionMdeg).toUInt32

/-- The line of `stats_task`. -/
def text : List UInt8 :=
  ascii "[node " ++ decimal r.nodeId.toNat ++ ascii "] up " ++ decimal (r.millis / 1000).toNat ++
    ascii "s | peers " ++ decimal r.alivePeers.toNat ++ ascii " | pos " ++
    ascii (if r.js.positionMdeg < 0 then "-" else "") ++ decimal (r.posAbs / 1000).toNat ++
    ascii "." ++ decimal (r.posAbs % 1000 / 100).toNat ++ ascii " deg vel " ++
    decimal (r.js.velocityMdegS / 1000).toInt ++ ascii " deg/s | tx " ++
    decimal r.stats.txFrames.toNat ++ ascii " rx " ++ decimal r.stats.rxFrames.toNat ++
    ascii " drop " ++ decimal r.txBusy.toNat ++ ascii "/" ++ decimal r.stats.rxDropped.toNat ++
    ascii " | tec " ++ decimal r.cs.txErrorCount.toNat ++ ascii " rec " ++
    decimal r.cs.rxErrorCount.toNat ++ ascii " | jitter " ++
    decimal r.stats.loopJitterMaxUs.toNat ++ ascii " us"

/-- The numbers up to `drop`, with their signs. -/
def front : List (Bool × Nat) :=
  [(false, r.nodeId.toNat), (false, (r.millis / 1000).toNat), (false, r.alivePeers.toNat),
   (r.js.positionMdeg < 0, (r.posAbs / 1000).toNat), (false, (r.posAbs % 1000 / 100).toNat),
   ((r.js.velocityMdegS / 1000).toInt < 0, (r.js.velocityMdegS / 1000).toInt.natAbs),
   (false, r.stats.txFrames.toNat), (false, r.stats.rxFrames.toNat)]

/-- The numbers behind it. -/
def back : List (Bool × Nat) :=
  [(false, r.txBusy.toNat), (false, r.stats.rxDropped.toNat), (false, r.cs.txErrorCount.toNat),
   (false, r.cs.rxErrorCount.toNat), (false, r.stats.loopJitterMaxUs.toNat)]

def frontTexts : List (List UInt8) :=
  [ascii "] up ", ascii "s | peers ", ascii " | pos ", ascii ".", ascii " deg vel ",
   ascii " deg/s | tx ", ascii " rx ", ascii " drop "]

def backTexts : List (List UInt8) :=
  [ascii "/", ascii " | tec ", ascii " rec ", ascii " | jitter ", ascii " us"]

theorem decimal_int (x : Int) : decimal x = signed (x < 0, x.natAbs) := by
  cases x with
  | ofNat n => rfl
  | negSucc n =>
    have hneg : decide (Int.negSucc n < 0) = true := decide_eq_true (Int.negSucc_lt_zero n)
    have htext : decimal (Int.negSucc n) = ascii ("-" ++ toString (n + 1)) := rfl
    rw [htext, ascii, String.toList_append, List.map_append, hneg]
    rfl

theorem text_eq :
    r.text = ascii "[node " ++ (fields frontTexts r.front ++ fields backTexts r.back) := by
  have hpos : ascii (if r.js.positionMdeg < 0 then "-" else "") =
      if r.js.positionMdeg < 0 then ascii "-" else [] := by
    split <;> rfl
  unfold text
  rw [hpos, decimal_int (r.js.velocityMdegS / 1000).toInt]
  simp only [fields, frontTexts, backTexts, front, back, signed, List.append_assoc, List.nil_append,
    List.append_nil, Bool.false_eq_true, if_false, decide_eq_true_eq]

theorem breaks_frontTexts : ∀ text ∈ frontTexts, breaks text = true := by decide

theorem breaks_backTexts : ∀ text ∈ backTexts, breaks text = true := by decide

/-! ## Its length -/

/-- The characters that the numbers of a list take. -/
def width (xs : List (Bool × Nat)) : Nat := (xs.map fun x => (signed x).length).sum

theorem length_fields {texts : List (List UInt8)} {xs : List (Bool × Nat)}
    (h : xs.length = texts.length) :
    (fields texts xs).length = width xs + (texts.map List.length).sum := by
  induction texts generalizing xs with
  | nil =>
    obtain rfl := List.eq_nil_of_length_eq_zero h
    rfl
  | cons text texts ih =>
    obtain ⟨x, xs, rfl⟩ := List.exists_cons_of_length_eq_add_one h
    have hrest := ih (Nat.succ.inj h)
    simp only [fields, width, List.length_append, List.map_cons, List.sum_cons] at hrest ⊢
    omega

theorem length_signed_le (neg : Bool) {n : Nat} (k : Nat) (hk : 0 < k) (h : n < 10 ^ k) :
    (signed (neg, n)).length ≤ k + neg.toNat := by
  have hlen := LogLine.length_decimal_le k hk h
  cases neg with
  | true =>
    rw [signed, if_pos rfl, List.length_append]
    show 1 + (decimal n).length ≤ k + 1
    omega
  | false => exact hlen

/-- The front of the line fits into a line of the log. -/
theorem length_front_le : (ascii "[node " ++ fields frontTexts r.front).length ≤ 117 := by
  have hnode := length_signed_le false 3 (by decide)
    (show r.nodeId.toNat < 10 ^ 3 by have := r.nodeId.toNat_lt; omega)
  have hup := length_signed_le false 7 (by decide)
    (show (r.millis / 1000).toNat < 10 ^ 7 by
      have := r.millis.toNat_lt
      rw [UInt32.toNat_div, show (1000 : UInt32).toNat = 1000 from rfl]
      omega)
  have hpeers := length_signed_le false 3 (by decide)
    (show r.alivePeers.toNat < 10 ^ 3 by have := r.alivePeers.toNat_lt; omega)
  have hpos := length_signed_le (r.js.positionMdeg < 0) 7 (by decide)
    (show (r.posAbs / 1000).toNat < 10 ^ 7 by
      have := r.posAbs.toNat_lt
      rw [UInt32.toNat_div, show (1000 : UInt32).toNat = 1000 from rfl]
      omega)
  have htenth := length_signed_le false 1 (by decide)
    (show (r.posAbs % 1000 / 100).toNat < 10 ^ 1 by
      rw [UInt32.toNat_div, UInt32.toNat_mod, show (1000 : UInt32).toNat = 1000 from rfl,
        show (100 : UInt32).toNat = 100 from rfl]
      omega)
  have hvel := length_signed_le ((r.js.velocityMdegS / 1000).toInt < 0) 10 (by decide)
    (show (r.js.velocityMdegS / 1000).toInt.natAbs < 10 ^ 10 by
      have := (r.js.velocityMdegS / 1000).le_toInt
      have := (r.js.velocityMdegS / 1000).toInt_lt
      omega)
  have htx := length_signed_le false 10 (by decide)
    (show r.stats.txFrames.toNat < 10 ^ 10 by have := r.stats.txFrames.toNat_lt; omega)
  have hrx := length_signed_le false 10 (by decide)
    (show r.stats.rxFrames.toNat < 10 ^ 10 by have := r.stats.rxFrames.toNat_lt; omega)
  have hposSign := (decide (r.js.positionMdeg < 0)).toNat_le
  have hvelSign := (decide ((r.js.velocityMdegS / 1000).toInt < 0)).toNat_le
  have htexts : (frontTexts.map List.length).sum = 54 := by decide
  rw [List.length_append, length_fields rfl, htexts, show (ascii "[node ").length = 6 from rfl]
  simp only [width, front, List.map_cons, List.map_nil, List.sum_cons, List.sum_nil]
  simp only [Bool.toNat_false] at *
  omega

/-! ## On the console -/

theorem plain_signed (x : Bool × Nat) : PlainText (signed x) := by
  obtain ⟨neg, n⟩ := x
  have hminus : PlainText (ascii "-") := by decide
  cases neg with
  | true => exact hminus.append (plain_decimal n)
  | false => exact plain_decimal n

theorem plain_fields {texts : List (List UInt8)} (h : ∀ text ∈ texts, PlainText text)
    (xs : List (Bool × Nat)) : PlainText (fields texts xs) := by
  induction texts generalizing xs with
  | nil => cases xs <;> exact nofun
  | cons text texts ih =>
    cases xs with
    | nil => exact nofun
    | cons x xs =>
      rw [List.forall_mem_cons] at h
      exact (plain_signed x).append (h.1.append (ih h.2 xs))

theorem plain_text : PlainText r.text := by
  rw [text_eq]
  have hfront : ∀ text ∈ frontTexts, PlainText text := by decide
  have hback : ∀ text ∈ backTexts, PlainText text := by decide
  have hnode : PlainText (ascii "[node ") := by decide
  exact hnode.append ((plain_fields hfront _).append (plain_fields hback _))

/-- The numbers take no more characters than there is room for. -/
def Complete : Prop := width r.front + width r.back ≤ 31

instance : Decidable r.Complete := inferInstanceAs (Decidable (_ ≤ _))

theorem length_text : r.text.length = 86 + (width r.front + width r.back) := by
  have hfront : (frontTexts.map List.length).sum = 54 := by decide
  have hback : (backTexts.map List.length).sum = 26 := by decide
  rw [text_eq, List.length_append, List.length_append, length_fields rfl, length_fields rfl, hfront,
    hback, show (ascii "[node ").length = 6 from rfl]
  omega

theorem shown_eq_iff : Console.shown r.text = r.text ↔ r.Complete := by
  rw [shown_plain r.plain_text, List.take_eq_self_iff, length_text, Complete]
  omega

/-- Whatever is cut off, the front can be read. -/
theorem front_of_shown {r r' : StatusReading} (h : Console.shown r.text = Console.shown r'.text) :
    r.front = r'.front := by
  have htake : ∀ q : StatusReading, ∃ rest,
      Console.shown q.text = ascii "[node " ++ (fields frontTexts q.front ++ rest) := by
    intro q
    refine ⟨(fields backTexts q.back).take
      (117 - (ascii "[node " ++ fields frontTexts q.front).length), ?_⟩
    rw [shown_plain q.plain_text, text_eq, ← List.append_assoc, List.take_append,
      List.take_of_length_le q.length_front_le, List.append_assoc]
  obtain ⟨rest, hrest⟩ := htake r
  obtain ⟨rest', hrest'⟩ := htake r'
  rw [hrest, hrest'] at h
  exact (fields_append breaks_frontTexts rfl rfl (List.append_cancel_left h)).1

theorem text_inj {r r' : StatusReading} (h : r.text = r'.text) :
    r.front = r'.front ∧ r.back = r'.back := by
  rw [text_eq, text_eq] at h
  obtain ⟨hfront, hrest⟩ :=
    fields_append breaks_frontTexts rfl rfl (List.append_cancel_left h)
  rw [← List.append_nil (fields backTexts r.back), ← List.append_nil (fields backTexts r'.back)]
    at hrest
  exact ⟨hfront, (fields_append breaks_backTexts rfl rfl hrest).1⟩

end StatusReading

/-- What the lines of a row of readings look like on the console. -/
def statusLog (rs : List StatusReading) : List UInt8 :=
  rs.flatMap fun r => Console.consoleText r.text

theorem map_eq_of_forall₂ {α : Type} {p : StatusReading → StatusReading → Prop}
    {f : StatusReading → α} {rs rs' : List StatusReading} (h : List.Forall₂ p rs rs')
    (hp : ∀ r ∈ rs, ∀ r' ∈ rs', p r r' → f r = f r') : rs.map f = rs'.map f := by
  induction h with
  | nil => rfl
  | @cons r r' rs rs' hr _ ih =>
    rw [List.map_cons, List.map_cons, hp r List.mem_cons_self r' List.mem_cons_self hr,
      ih fun q hq q' hq' => hp q (List.mem_cons_of_mem r hq) q' (List.mem_cons_of_mem r' hq')]

/-- **What the line of a second tells.** Cut off or not, a row of these lines tells of each the
node, the time, the peers, the position, the velocity and the frames sent and received. The line is
complete exactly where its numbers have no more than 31 characters together, and then it tells the
rest as well. -/
theorem status_line :
    (∀ rs rs' : List StatusReading, statusLog rs = statusLog rs' →
      rs.map StatusReading.front = rs'.map StatusReading.front) ∧
    (∀ r : StatusReading, Console.shown r.text = r.text ↔ r.Complete) ∧
    ∀ rs rs' : List StatusReading, (∀ r ∈ rs, r.Complete) → (∀ r ∈ rs', r.Complete) →
      statusLog rs = statusLog rs' → rs.map StatusReading.back = rs'.map StatusReading.back := by
  refine ⟨fun rs rs' h => ?_, StatusReading.shown_eq_iff, fun rs rs' hrs hrs' h => ?_⟩
  · exact map_eq_of_forall₂ (forall₂_shown StatusReading.plain_text h)
      fun r _ r' _ hshown => StatusReading.front_of_shown hshown
  · refine map_eq_of_forall₂ (forall₂_shown StatusReading.plain_text h) fun r hr r' hr' hshown => ?_
    rw [r.shown_eq_iff.mpr (hrs r hr), r'.shown_eq_iff.mpr (hrs' r' hr')] at hshown
    exact (StatusReading.text_inj hshown).2

/-- A reading in the first seconds after the start. -/
def firstReading (millis : UInt32) : StatusReading :=
  ⟨1, millis, 1, default, ⟨7, 5, 0, 12⟩, 0, ⟨0, 0, false⟩⟩

/-- Two readings within one second: the lines are complete and look alike. -/
theorem status_line_second :
    [firstReading 4000].map StatusReading.back = [firstReading 4999].map StatusReading.back :=
  status_line.2.2 _ _ (by decide +kernel) (by decide +kernel) (by decide +kernel)

end Rjs

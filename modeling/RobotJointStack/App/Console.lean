import RobotJointStack.Lib.Fifo
import RobotJointStack.Lib.Machine
import RobotJointStack.Lib.Network
import RobotJointStack.Lib.SharedCounter
import Mathlib.Data.List.TakeWhile

/-!
# App.Console

The logger (`log.c`): `rjs_log` formats a line on the stack of its caller and sends it to a queue of
16; the log task takes the lines out and writes them to the UART byte by byte. Callers and log task
interleave in any way. What `vsnprintf` makes of its arguments is the business of the caller: a call
comes with the formatted text, or with none where it fails.

* `written_logLine`: whatever was on the stack, a line goes out as its text and a line end.
* `stream_moves`: the bytes out, those of the line in hand and those of the queue, in this order.
* `console_sound`, `console_drains`: so the UART shows every accepted line whole, once and in order.
-/

namespace Rjs

open Machine Network

namespace Console

def rjsLogLineMax : Nat := 120

def logQueueDepth : Nat := 16

/-- `log_line_t`. -/
structure Line where
  text : List UInt8
  length_text : text.length = rjsLogLineMax

/-- `bounded_len`. -/
def boundedLen : List UInt8 → Nat → Nat
  | c :: s, max + 1 => if c = 0 then 0 else boundedLen s max + 1
  | _, _ => 0

/-- What `vsnprintf` leaves in a buffer of which it may use `size` bytes. -/
def vsnprintf (size : Nat) (formatted buf : List UInt8) : List UInt8 :=
  let out := formatted.take (size - 1) ++ [0]
  out ++ buf.drop out.length

/-- The line that `rjs_log` sends; `line` is what its stack has held before. -/
def logLine (line : Line) (formatted : List UInt8) : Line :=
  let text := vsnprintf (rjsLogLineMax - 2) formatted line.text
  let len := boundedLen text (rjsLogLineMax - 2)
  let ended := (text.set len 13).set (len + 1) 10
  ⟨if len + 2 < rjsLogLineMax then ended.set (len + 2) 0 else ended, by
    have hlen := line.length_text
    have htext : text.length = rjsLogLineMax := by
      simp only [text, vsnprintf, List.length_append, List.length_drop, List.length_take,
        List.length_singleton, hlen, rjsLogLineMax]
      omega
    split <;> simp only [ended, List.length_set, htext]⟩

/-- What `log_task` writes of a line. -/
def Line.written (line : Line) : List UInt8 :=
  line.text.take (boundedLen line.text rjsLogLineMax)

/-- What is shown of a text: as much as fits, up to its first zero. -/
def shown (formatted : List UInt8) : List UInt8 :=
  (formatted.take (rjsLogLineMax - 3)).takeWhile (· ≠ 0)

def consoleText (formatted : List UInt8) : List UInt8 := shown formatted ++ [13, 10]

/-! ## One line -/

theorem boundedLen_append {s : List UInt8} (hs : ∀ c ∈ s, c ≠ 0) (rest : List UInt8) {max : Nat}
    (hmax : s.length ≤ max) : boundedLen (s ++ 0 :: rest) max = s.length := by
  induction s generalizing max with
  | nil => cases max <;> simp [boundedLen]
  | cons c s ih =>
    cases max with
    | zero => cases hmax
    | succ max =>
      have hc := hs c List.mem_cons_self
      simp only [List.cons_append, boundedLen, if_neg hc, List.length_cons]
      rw [ih (fun d hd => hs d (List.mem_cons_of_mem c hd)) (Nat.le_of_succ_le_succ hmax)]

/-- A text that a zero ends, up to its first zero. -/
theorem takeWhile_append_zero (s rest : List UInt8) :
    ∃ rest', s ++ 0 :: rest = s.takeWhile (· ≠ 0) ++ 0 :: rest' := by
  induction s with
  | nil => exact ⟨rest, rfl⟩
  | cons c s ih =>
    by_cases hc : c = 0
    · subst hc
      exact ⟨s ++ 0 :: rest, by simp⟩
    · obtain ⟨rest', h⟩ := ih
      exact ⟨rest', by simp [hc, h]⟩

theorem ne_zero_of_mem_shown {formatted : List UInt8} {c : UInt8} (h : c ∈ shown formatted) :
    c ≠ 0 := by
  unfold shown at h
  have hc := List.mem_takeWhile_imp h
  simpa using hc

theorem length_shown_le (formatted : List UInt8) : (shown formatted).length ≤ 117 :=
  (List.takeWhile_prefix _).length_le.trans (List.length_take_le _ _)

/-- The three bytes that `rjs_log` puts behind a text with room for them. -/
theorem set_three (s : List UInt8) (a b c : UInt8) (rest : List UInt8) (x y z : UInt8) :
    (((s ++ x :: y :: z :: rest).set s.length a).set (s.length + 1) b).set (s.length + 2) c =
      s ++ a :: b :: c :: rest := by
  induction s with
  | nil => rfl
  | cons d s ih => simp only [List.cons_append, List.length_cons, List.set_cons_succ, ih]

theorem vsnprintf_eq (line : Line) (formatted : List UInt8) :
    ∃ x y rest, vsnprintf (rjsLogLineMax - 2) formatted line.text =
      shown formatted ++ 0 :: x :: y :: rest := by
  let taken := formatted.take (rjsLogLineMax - 3)
  have htext : vsnprintf (rjsLogLineMax - 2) formatted line.text =
      taken ++ 0 :: line.text.drop (taken.length + 1) := by
    simp only [vsnprintf, List.length_append, List.length_singleton, List.append_assoc,
      List.singleton_append]
    rfl
  obtain ⟨rest, hrest⟩ := takeWhile_append_zero taken (line.text.drop (taken.length + 1))
  have hlen := congrArg List.length hrest
  have hshown : (taken.takeWhile (· ≠ 0)).length ≤ taken.length := (List.takeWhile_prefix _).length_le
  have htaken : taken.length ≤ 117 := List.length_take_le _ _
  simp only [List.length_append, List.length_cons, List.length_drop, line.length_text,
    rjsLogLineMax] at hlen
  rw [htext, hrest]
  match rest, hlen with
  | x :: y :: rest, _ => exact ⟨x, y, rest, rfl⟩
  | [x], hlen => simp only [List.length_singleton] at hlen; omega
  | [], hlen => simp only [List.length_nil] at hlen; omega

theorem written_logLine (line : Line) (formatted : List UInt8) :
    (logLine line formatted).written = consoleText formatted := by
  obtain ⟨x, y, rest, htext⟩ := vsnprintf_eq line formatted
  have hne : ∀ c ∈ shown formatted, c ≠ 0 := fun c hc => ne_zero_of_mem_shown hc
  have hmax := length_shown_le formatted
  have hline : (logLine line formatted).text = consoleText formatted ++ 0 :: rest := by
    simp only [logLine, htext, consoleText]
    rw [boundedLen_append hne _ (by unfold rjsLogLineMax; omega),
      if_pos (by unfold rjsLogLineMax; omega), set_three, List.append_assoc]
    rfl
  rw [Line.written, hline, boundedLen_append, List.take_left]
  · intro c hc
    rcases List.mem_append.mp hc with hc | hc
    · exact hne c hc
    · simp only [List.mem_cons, List.not_mem_nil, or_false] at hc
      rcases hc with rfl | rfl <;> decide
  · simp only [consoleText, List.length_append, List.length_cons, List.length_nil, rjsLogLineMax]
    omega

/-! ## Callers and log task -/

/-- Where a task is: outside `rjs_log`, before `xQueueSend`, or before one of the two halves of
`s_dropped++`. -/
inductive Pc where
  | outside
  | sending (formatted : List UInt8) (line : Line)
  | refused
  | dropping

end Console

/-- The tasks, the queue once it exists, the line that the log task has in hand with the number of
its bytes that are out, and the UART. The last two fields are the history: the calls in the order in
which they come to the queue, with the answer, and the tasks that have counted a line. -/
structure Console (ι : Type) where
  pc : ι → Console.Pc
  queue : Option (Fifo Console.Line)
  inHand : Option (Console.Line × Nat)
  uart : List UInt8
  dropped : SharedCounter ι
  calls : List (ι × List UInt8 × Bool)
  counted : List ι

inductive ConsoleEvent (ι : Type) where
  /-- `rjs_log_start`. -/
  | start
  | log (i : ι) (line : Console.Line) (formatted : Option (List UInt8))
  | step (i : ι)
  | task

namespace Console

section Act

variable {ι : Type}

def init : Console ι where
  pc := fun _ => .outside
  queue := none
  inHand := none
  uart := []
  dropped := .zero
  calls := []
  counted := []

/-- One step of `log_task` and `board_uart_write`. -/
def task (s : Console ι) : Option (Console ι) :=
  match s.inHand with
  | some (line, n) =>
    match line.written[n]? with
    | some byte => some { s with uart := s.uart ++ [byte], inHand := some (line, n + 1) }
    | none => some { s with inHand := none }
  | none =>
    match s.queue.bind Fifo.receive with
    | some (line, queue) => some { s with queue := some queue, inHand := some (line, 0) }
    | none => none

variable [DecidableEq ι]

def goto (s : Console ι) (i : ι) (pc : Pc) : Console ι :=
  { s with pc := Function.update s.pc i pc }

def called (s : Console ι) (i : ι) (formatted : List UInt8) (ok : Bool) : Console ι :=
  { s with calls := s.calls ++ [(i, formatted, ok)] }.goto i (if ok then .outside else .refused)

def step (s : Console ι) (i : ι) : Option (Console ι) :=
  match s.pc i with
  | .outside => none
  | .sending formatted line =>
    match s.queue with
    | none => some (s.called i formatted false)
    | some queue =>
      let (ok, queue) := queue.send line
      some ({ s with queue := some queue }.called i formatted ok)
  | .refused => some ({ s with dropped := s.dropped.load i }.goto i .dropping)
  | .dropping =>
    some ({ s with
      dropped := s.dropped.store i
      counted := s.counted ++ [i] }.goto i .outside)

def act (s : Console ι) : ConsoleEvent ι → Option (Console ι)
  | .start => if s.queue.isNone then some { s with queue := some (.create logQueueDepth) } else none
  | .log i line formatted =>
    match s.pc i, formatted with
    | .outside, some formatted => some (s.goto i (.sending formatted (logLine line formatted)))
    | .outside, none => some s
    | _, _ => none
  | .step i => s.step i
  | .task => s.task

end Act

section Invariant

variable {ι : Type} [DecidableEq ι]

/-- What the queue still holds for the UART. -/
def queued : Option (Fifo Line) → List UInt8
  | some queue => queue.items.flatMap Line.written
  | none => []

/-- What is left of the line in hand. -/
def rest : Option (Line × Nat) → List UInt8
  | some (line, n) => line.written.drop n
  | none => []

/-- What the UART is to show: the accepted texts. -/
def accepted (calls : List (ι × List UInt8 × Bool)) : List UInt8 :=
  (calls.filter fun c => c.2.2).flatMap fun c => consoleText c.2.1

def Stream (s : Console ι) : Prop :=
  s.uart ++ (rest s.inHand ++ queued s.queue) = accepted s.calls

def Prepared (s : Console ι) : Prop :=
  ∀ i formatted line, s.pc i = .sending formatted line → line.written = consoleText formatted

def isDropping : Pc → Bool
  | .dropping => true
  | _ => false

/-- The refused lines that a task has still to count. -/
def uncounted : Pc → Nat
  | .refused => 1
  | .dropping => 1
  | _ => 0

/-- Every task counts every line that the queue has refused. -/
def Accounted (s : Console ι) : Prop :=
  ∀ i, (own i s.calls).countP (fun c => !c.2) = s.counted.count i + uncounted (s.pc i)

structure Sound (s : Console ι) : Prop where
  stream : s.Stream
  prepared : s.Prepared
  accounted : s.Accounted
  held : s.dropped.Holds s.pc isDropping
  counts : ∃ n, s.dropped.Counts n s.counted.length

theorem sound_init : (init : Console ι).Sound where
  stream := rfl
  prepared := nofun
  accounted _ := rfl
  held _ := rfl
  counts := ⟨0, SharedCounter.counts_zero⟩

/-- The steps, one for each way they can go. -/
inductive Moves (s : Console ι) : Console ι → Prop where
  | start (hq : s.queue = none) : Moves s { s with queue := some (.create logQueueDepth) }
  | log {i} (hpc : s.pc i = .outside) (line formatted) :
      Moves s (s.goto i (.sending formatted (logLine line formatted)))
  | noText : Moves s s
  | sent {i formatted line queue queue'} (hpc : s.pc i = .sending formatted line)
      (hq : s.queue = some queue) (hitems : queue'.items = queue.items ++ [line]) :
      Moves s ({ s with queue := some queue' }.called i formatted true)
  | refused {i formatted line} (hpc : s.pc i = .sending formatted line) :
      Moves s (s.called i formatted false)
  | load {i} (hpc : s.pc i = .refused) :
      Moves s ({ s with dropped := s.dropped.load i }.goto i .dropping)
  | store {i} (hpc : s.pc i = .dropping) :
      Moves s ({ s with
        dropped := s.dropped.store i
        counted := s.counted ++ [i] }.goto i .outside)
  | take {line queue queue'} (hhand : s.inHand = none) (hq : s.queue = some queue)
      (hitems : queue.items = line :: queue'.items) :
      Moves s { s with queue := some queue', inHand := some (line, 0) }
  | write {line n byte} (hhand : s.inHand = some (line, n)) (hbyte : line.written[n]? = some byte) :
      Moves s { s with uart := s.uart ++ [byte], inHand := some (line, n + 1) }
  | finish {line n} (hhand : s.inHand = some (line, n)) (hend : line.written[n]? = none) :
      Moves s { s with inHand := none }

variable {s t : Console ι} {i : ι} {e : ConsoleEvent ι}

omit [DecidableEq ι] in
theorem queue_self {queue : Fifo Line} (hq : s.queue = some queue) :
    { s with queue := some queue } = s := by
  cases s
  cases hq
  rfl

theorem moves_of_step (h : s.step i = some t) : s.Moves t := by
  cases hpc : s.pc i with
  | outside => simp [step, hpc] at h
  | sending formatted line =>
    simp only [step, hpc] at h
    split at h
    · cases h
      exact .refused hpc
    · rename_i queue hq
      by_cases hroom : queue.items.length < queue.depth
      · obtain ⟨hok, hitems⟩ := Fifo.send_of_room hroom line
        cases h
        rw [hok]
        exact .sent hpc hq hitems
      · rw [Fifo.send_of_full hroom] at h
        cases h
        rw [queue_self hq]
        exact .refused hpc
  | refused =>
    simp only [step, hpc, Option.some.injEq] at h
    subst h
    exact .load hpc
  | dropping =>
    simp only [step, hpc, Option.some.injEq] at h
    subst h
    exact .store hpc

omit [DecidableEq ι] in
theorem task_cases (h : s.task = some t) :
    (∃ line n byte, s.inHand = some (line, n) ∧ line.written[n]? = some byte ∧
      t = { s with uart := s.uart ++ [byte], inHand := some (line, n + 1) }) ∨
    (∃ line n, s.inHand = some (line, n) ∧ line.written[n]? = none ∧
      t = { s with inHand := none }) ∨
    ∃ line queue queue', s.inHand = none ∧ s.queue = some queue ∧
      queue.items = line :: queue'.items ∧
      t = { s with queue := some queue', inHand := some (line, 0) } := by
  unfold task at h
  split at h
  · rename_i line n hhand
    split at h
    · rename_i byte hbyte
      exact .inl ⟨line, n, byte, hhand, hbyte, (Option.some.inj h).symm⟩
    · rename_i hend
      exact .inr (.inl ⟨line, n, hhand, hend, (Option.some.inj h).symm⟩)
  · rename_i hhand
    split at h
    · rename_i line queue' hreceive
      obtain ⟨queue, hq, hreceive⟩ := Option.bind_eq_some_iff.mp hreceive
      exact .inr (.inr ⟨line, queue, queue', hhand, hq, Fifo.items_of_receive hreceive,
        (Option.some.inj h).symm⟩)
    · cases h

omit [DecidableEq ι] in
theorem task_eq_none (h : s.task = none) : rest s.inHand = [] ∧ queued s.queue = [] := by
  unfold task at h
  split at h
  · split at h <;> cases h
  · rename_i hhand
    split at h
    · cases h
    · rename_i hreceive
      refine ⟨by rw [hhand]; rfl, ?_⟩
      cases hq : s.queue with
      | none => rfl
      | some queue =>
        rw [hq] at hreceive
        simp only [queued, Fifo.receive_eq_none.mp hreceive, List.flatMap_nil]

theorem moves_of_act (h : s.act e = some t) : s.Moves t := by
  cases e with
  | start =>
    simp only [act, Option.ite_none_right_eq_some, Option.some.injEq] at h
    obtain ⟨hq, rfl⟩ := h
    exact .start (Option.isNone_iff_eq_none.mp hq)
  | log i line formatted =>
    simp only [act] at h
    split at h
    · cases h
      exact .log ‹_› line _
    · cases h
      exact .noText
    · cases h
  | step i => exact moves_of_step h
  | task =>
    obtain ⟨line, n, byte, hhand, hbyte, rfl⟩ | ⟨line, n, hhand, hend, rfl⟩ |
      ⟨line, queue, queue', hhand, hq, hitems, rfl⟩ := task_cases h
    · exact .write hhand hbyte
    · exact .finish hhand hend
    · exact .take hhand hq hitems

omit [DecidableEq ι] in
theorem accepted_append (calls : List (ι × List UInt8 × Bool)) (i : ι) (formatted : List UInt8)
    (ok : Bool) : accepted (calls ++ [(i, formatted, ok)]) =
      accepted calls ++ if ok then consoleText formatted else [] := by
  cases ok <;> simp [accepted]

theorem stream_moves (h : s.Sound) (hst : s.Moves t) : t.Stream := by
  have hstream := h.stream
  unfold Stream at hstream ⊢
  cases hst with
  | start hq =>
    rw [hq] at hstream
    exact hstream
  | @sent i formatted line queue queue' hpc hq hitems =>
    have hwritten := h.prepared i formatted line hpc
    rw [hq] at hstream
    have hqueued : queued (some queue') = queued (some queue) ++ consoleText formatted := by
      simp only [queued, hitems, List.flatMap_append, List.flatMap_singleton, hwritten]
    show s.uart ++ (rest s.inHand ++ queued (some queue')) =
      accepted (s.calls ++ [(i, formatted, true)])
    rw [accepted_append, if_pos rfl, hqueued, ← hstream]
    simp only [List.append_assoc]
  | @refused i formatted line hpc =>
    show s.uart ++ (rest s.inHand ++ queued s.queue) =
      accepted (s.calls ++ [(i, formatted, false)])
    rw [accepted_append, if_neg Bool.false_ne_true, List.append_nil]
    exact hstream
  | @take line queue queue' hhand hq hitems =>
    rw [hhand, hq] at hstream
    rw [← hstream]
    simp only [rest, queued, hitems, List.drop_zero, List.flatMap_cons, List.nil_append]
  | @write line n byte hhand hbyte =>
    obtain ⟨hn, hget⟩ := List.getElem?_eq_some_iff.mp hbyte
    rw [hhand] at hstream
    simp only [rest] at hstream ⊢
    rw [← hstream, List.drop_eq_getElem_cons hn, hget]
    simp only [List.append_assoc, List.cons_append, List.nil_append]
  | @finish line n hhand hend =>
    rw [hhand] at hstream
    simp only [rest] at hstream ⊢
    rw [← hstream, List.drop_eq_nil_of_le (List.getElem?_eq_none_iff.mp hend)]
  | log | noText | load | store => exact hstream

theorem prepared_moves (h : s.Prepared) (hst : s.Moves t) : t.Prepared := by
  have hmove : ∀ i pc, (∀ formatted line, pc = .sending formatted line →
      line.written = consoleText formatted) → (s.goto i pc).Prepared := by
    intro i pc hpc
    exact (Function.forall_update_iff s.pc fun _ pc => ∀ formatted line,
      pc = .sending formatted line → line.written = consoleText formatted).mpr
        ⟨hpc, fun j _ => h j⟩
  cases hst with
  | @log i hpc line formatted =>
    refine hmove i _ fun formatted' line' hsending => ?_
    cases hsending
    exact written_logLine line formatted
  | sent | refused | load | store => exact hmove _ _ nofun
  | start | noText | take | write | finish => exact h

/-- The accounts after one task has gone on. -/
theorem Accounted.move (h : s.Accounted) {pc : Pc} (hpc : uncounted pc = uncounted (s.pc i)) :
    (s.goto i pc).Accounted := by
  refine (Function.forall_update_iff s.pc fun j pc =>
    (own j s.calls).countP (fun c => !c.2) = s.counted.count j + uncounted pc).mpr ⟨?_, fun j _ => h j⟩
  rw [hpc]
  exact h i

theorem Accounted.called (h : s.Accounted) (hi : uncounted (s.pc i) = 0) (formatted : List UInt8)
    (ok : Bool) : (s.called i formatted ok).Accounted := by
  refine (Function.forall_update_iff s.pc fun j pc =>
    (own j (s.calls ++ [(i, formatted, ok)])).countP (fun c => !c.2) =
      s.counted.count j + uncounted pc).mpr ⟨?_, fun j hji => ?_⟩
  · rw [own_concat_self, List.countP_append, h i, hi]
    cases ok <;> rfl
  · rw [own_concat_other hji.symm]
    exact h j

theorem accounted_moves (h : s.Accounted) (hst : s.Moves t) : t.Accounted := by
  cases hst with
  | log hpc => exact h.move (by rw [hpc]; rfl)
  | sent hpc => exact Accounted.called (s := { s with queue := _ }) h (by rw [hpc]; rfl) _ _
  | refused hpc => exact h.called (by rw [hpc]; rfl) _ _
  | load hpc => exact h.move (by rw [hpc]; rfl)
  | @store i hpc =>
    refine (Function.forall_update_iff s.pc fun j pc =>
      (own j s.calls).countP (fun c => !c.2) = (s.counted ++ [i]).count j + uncounted pc).mpr
        ⟨?_, fun j hji => ?_⟩
    · rw [h i, hpc, List.count_append, List.count_singleton_self]
      rfl
    · rw [h j, List.count_append, List.count_singleton, if_neg (by simpa using hji.symm)]
      rfl
  | start | noText | take | write | finish => exact h

theorem dropped_moves (h : s.Sound) (hst : s.Moves t) :
    t.dropped.Holds t.pc isDropping ∧ ∃ n, t.dropped.Counts n t.counted.length := by
  have hheld := h.held
  obtain ⟨n, hcounts⟩ := h.counts
  cases hst with
  | load hpc => exact ⟨hheld.load rfl, n, hcounts.load⟩
  | @store i hpc =>
    obtain ⟨v, hv⟩ := hheld.held (i := i) (by rw [hpc]; rfl)
    refine ⟨hheld.store (by rw [hpc]; rfl) rfl, ?_⟩
    show ∃ n, (s.dropped.store i).Counts n (s.counted ++ [i]).length
    rw [List.length_append]
    exact hcounts.store hv
  | log hpc | sent hpc | refused hpc => exact ⟨hheld.move (by rw [hpc]; rfl), n, hcounts⟩
  | start | noText | take | write | finish => exact ⟨hheld, n, hcounts⟩

theorem sound_act (h : s.Sound) (hact : s.act e = some t) : t.Sound := by
  have hst := moves_of_act hact
  obtain ⟨hheld, hcounts⟩ := dropped_moves h hst
  exact ⟨stream_moves h hst, prepared_moves h.prepared hst, accounted_moves h.accounted hst, hheld,
    hcounts⟩

theorem sound_run {events : List (ConsoleEvent ι)} (h : s.Sound)
    (hrun : run act s events = some t) : t.Sound := by
  induction events generalizing s with
  | nil =>
    cases hrun
    exact h
  | cons e events ih =>
    obtain ⟨u, hact, hrest⟩ := Option.bind_eq_some_iff.mp hrun
    exact ih (sound_act h hact) hrest

/-- Nobody waits in `rjs_log`. -/
theorem step_isSome (h : s.pc i ≠ .outside) : (s.step i).isSome = true := by
  unfold step
  cases hpc : s.pc i with
  | outside => exact absurd hpc h
  | sending formatted line =>
    dsimp only
    split <;> rfl
  | refused => rfl
  | dropping => rfl

/-! ## The log task on its own -/

/-- What the log task has still to do: the bytes and the end of every line, and taking it. -/
def work (s : Console ι) : Nat :=
  (match s.inHand with
    | some (line, n) => line.written.length - n + 1
    | none => 0) +
  match s.queue with
    | some queue => (queue.items.map fun line => line.written.length + 2).sum
    | none => 0

omit [DecidableEq ι] in
theorem task_work (h : s.task = some t) : t.work < s.work ∧ t.calls = s.calls := by
  obtain ⟨line, n, byte, hhand, hbyte, rfl⟩ | ⟨line, n, hhand, hend, rfl⟩ |
    ⟨line, queue, queue', hhand, hq, hitems, rfl⟩ := task_cases h
  · obtain ⟨hn, -⟩ := List.getElem?_eq_some_iff.mp hbyte
    refine ⟨?_, rfl⟩
    simp only [work, hhand]
    omega
  · refine ⟨?_, rfl⟩
    simp only [work, hhand]
    omega
  · refine ⟨?_, rfl⟩
    simp only [work, hhand, hq, hitems, List.map_cons, List.sum_cons]
    omega

theorem task_drains (h : s.Sound) : ∃ n t, run act s (List.replicate n .task) = some t ∧
    t.task = none ∧ t.uart = accepted s.calls := by
  induction hwork : s.work using Nat.strong_induction_on generalizing s with
  | _ work ih =>
    cases htask : s.task with
    | none =>
      obtain ⟨hrest, hqueued⟩ := task_eq_none htask
      have hstream := h.stream
      unfold Stream at hstream
      rw [hrest, hqueued, List.append_nil, List.append_nil] at hstream
      exact ⟨0, s, rfl, htask, hstream⟩
    | some u =>
      obtain ⟨hlt, hcalls⟩ := task_work htask
      obtain ⟨n, t, hrun, hnone, huart⟩ := ih u.work (hwork ▸ hlt) (sound_act (e := .task) h htask) rfl
      refine ⟨n + 1, t, ?_, hnone, huart.trans (by rw [hcalls])⟩
      rw [List.replicate_succ]
      exact Option.bind_eq_some_iff.mpr ⟨u, htask, hrun⟩

/-! ## Runs -/

/-- **The console.** However the tasks that log and the log task interleave, the UART has shown a
beginning of the accepted texts, each whole and on a line of its own, in the order in which the queue
took them; the rest is in hand or in the queue. No caller ever waits. Every refused line is counted
by its caller, and `s_dropped` never exceeds what has been counted, nor is it 0 once something was. -/
theorem console_sound (events : List (ConsoleEvent ι)) {s : Console ι}
    (h : run act init events = some s) :
    s.uart ++ (rest s.inHand ++ queued s.queue) = accepted s.calls ∧
    (∀ i, s.pc i ≠ .outside → (s.step i).isSome = true) ∧
    (∀ i, (own i s.calls).countP (fun c => !c.2) = s.counted.count i + uncounted (s.pc i)) ∧
    ∃ n ≤ s.counted.length, s.dropped.value = UInt32.ofNat n ∧ (0 < s.counted.length → 0 < n) := by
  have hs := sound_run sound_init h
  obtain ⟨n, hn⟩ := hs.counts
  exact ⟨hs.stream, fun _ => step_isSome, hs.accounted, n, hn.le, hn.value, hn.pos⟩

/-- **Everything comes out.** From any state, the log task alone gets all accepted texts out, and
then waits for the next. -/
theorem console_drains (events : List (ConsoleEvent ι)) {s : Console ι}
    (h : run act init events = some s) :
    ∃ n t, run act s (List.replicate n .task) = some t ∧ t.task = none ∧
      t.uart = accepted s.calls :=
  task_drains (sound_run sound_init h)

end Invariant

/-- A line on a stack that has been used before. -/
def staleLine : Line := ⟨List.replicate 120 0xFF, rfl⟩

/-- A line is in hand when two tasks log at once; the second to call is the first at the queue. -/
def twoCallers : List (ConsoleEvent Bool) :=
  [.start, .log true staleLine (some [65]), .step true, .task, .task,
    .log true staleLine (some [66]), .log false staleLine (some [67]), .step false, .step true]

theorem console_sound_two : ∃ s : Console Bool, run act init twoCallers = some s ∧
    accepted s.calls = [65, 13, 10, 67, 13, 10, 66, 13, 10] ∧
    s.uart ++ (rest s.inHand ++ queued s.queue) = accepted s.calls :=
  ⟨_, rfl, by decide, (console_sound twoCallers rfl).1⟩

theorem console_drains_two : ∃ s : Console Bool, run act init twoCallers = some s ∧
    ∃ n t, run act s (List.replicate n .task) = some t ∧ t.task = none ∧
      t.uart = accepted s.calls :=
  ⟨_, rfl, console_drains twoCallers rfl⟩

end Console

end Rjs

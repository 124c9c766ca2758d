import RobotJointStack.App.StatusLine

/-!
# App.NodeLog

Everything a node logs: the lines of `app_start`, those of the button, those about the bus, and the
status line of every second. The console shows them mixed, and the long ones cut off.

* `plain_text`: no text has a line end in it.
* `tag_shown`: the first characters of a line on the console tell what it is about.
* `log_readable`: so the console gives back what was logged, up to the end of long status lines.
-/

namespace Rjs

open StatusScreen Machine

/-- `board_name`. -/
def boardName : List UInt8 := ascii "NUCLEO-H7S3L8"

/-- A call of `rjs_log` in `app.c`. -/
inductive NodeLine where
  | empty
  | started (node : UInt8)
  | bitrates
  | sweep (enabled : Bool)
  | bus (l : LogLine)
  | status (r : StatusReading)

namespace NodeLine

/-- The text of a line, as the formats in `app.c` give it. -/
def text : NodeLine → List UInt8
  | .empty => []
  | .started node =>
    ascii "robot-joint-stack " ++ decimal fwMajor.toNat ++ ascii "." ++ decimal fwMinor.toNat ++
      ascii "." ++ decimal fwPatch.toNat ++ ascii " on " ++ boardName ++ ascii ", node " ++
      decimal node.toNat ++ ascii (if node = controllerNodeId then " (controller)" else "")
  | .bitrates => ascii "CAN FD 1 Mbit/s nominal, 2 Mbit/s data (BRS)"
  | .sweep enabled =>
    ascii "[ctrl] sweep " ++ ascii (if enabled then "ENABLED" else "STOPPED (joints will time out)")
  | .bus l => l.text
  | .status r => r.text

/-- Two lines that agree, of status lines up to the counters that may be cut off. -/
inductive Alike : NodeLine → NodeLine → Prop where
  | refl (l : NodeLine) : Alike l l
  | status {r r' : StatusReading} (h : r.front = r'.front) : Alike (.status r) (.status r')

/-- The line about the bus. -/
def bus? : NodeLine → Option LogLine
  | .bus l => some l
  | _ => none

/-! ## Texts -/

theorem started_eq (node : UInt8) :
    text (.started node) = ascii "robot-joint-stack 0.1.0 on NUCLEO-H7S3L8, node " ++
      (decimal node.toNat ++ ascii (if node = controllerNodeId then " (controller)" else "")) := by
  have hfront : ascii "robot-joint-stack " ++ decimal fwMajor.toNat ++ ascii "." ++
      decimal fwMinor.toNat ++ ascii "." ++ decimal fwPatch.toNat ++ ascii " on " ++ boardName ++
      ascii ", node " = ascii "robot-joint-stack 0.1.0 on NUCLEO-H7S3L8, node " := by decide
  rw [text, hfront, List.append_assoc]

theorem plain_text (l : NodeLine) : PlainText l.text := by
  cases l with
  | empty => exact nofun
  | started node =>
    have hfront : PlainText (ascii "robot-joint-stack 0.1.0 on NUCLEO-H7S3L8, node ") := by decide
    have hback : PlainText (ascii (if node = controllerNodeId then " (controller)" else "")) := by
      split <;> decide
    rw [started_eq]
    exact hfront.append ((plain_decimal _).append hback)
  | bitrates => exact (by decide : PlainText (ascii "CAN FD 1 Mbit/s nominal, 2 Mbit/s data (BRS)"))
  | sweep enabled =>
    have hfront : PlainText (ascii "[ctrl] sweep ") := by decide
    refine hfront.append ?_
    split <;> decide
  | bus l => exact l.plain_text
  | status r => exact r.plain_text

/-- With its identifier behind it, the line that a node starts with tells which node it is. -/
theorem started_text {node node' : UInt8} (h : text (.started node) = text (.started node')) :
    node = node' := by
  have hread (n : UInt8) := takeWhile_decimal n.toNat
    (e := ascii (if n = controllerNodeId then " (controller)" else "")) (by split <;> decide)
  rw [started_eq, started_eq] at h
  have hdigits := congrArg (List.takeWhile (IsDigit ·)) (List.append_cancel_left h)
  rw [hread, hread] at hdigits
  exact UInt8.toNat_inj.mp (decimal_injective hdigits)

/-! ## On the console -/

/-- How the texts of a kind begin. -/
def tag : NodeLine → List UInt8
  | .empty => []
  | .started _ => ascii "robot-"
  | .bitrates => ascii "CAN FD"
  | .sweep _ => ascii "[ctrl]"
  | .bus _ => ascii "[bus] "
  | .status _ => ascii "[node "

theorem tag_text (l : NodeLine) : l.text.take 6 = l.tag := by
  cases l with
  | empty => rfl
  | started node => rw [started_eq]; rfl
  | bitrates => rfl
  | sweep enabled => rfl
  | bus l =>
    cases l with
    | _ => simp only [text, LogLine.text, List.append_assoc]; rfl
  | status r => rw [text, StatusReading.text_eq]; rfl

theorem tag_shown (l : NodeLine) : (Console.shown l.text).take 6 = l.tag := by
  rw [shown_plain l.plain_text, List.take_take]
  exact l.tag_text

/-- Only status lines are cut off. -/
theorem shown_text {l : NodeLine} (h : ∀ r, l ≠ .status r) : Console.shown l.text = l.text := by
  rw [shown_plain l.plain_text, List.take_of_length_le]
  cases l with
  | empty => decide
  | started node =>
    have hnode := LogLine.length_byte_le node
    have hback : (ascii (if node = controllerNodeId then " (controller)" else "")).length ≤ 13 := by
      split <;> decide
    rw [started_eq, List.length_append, List.length_append,
      show (ascii "robot-joint-stack 0.1.0 on NUCLEO-H7S3L8, node ").length = 47 from rfl]
    omega
  | bitrates => decide
  | sweep enabled => cases enabled <;> decide
  | bus l => exact l.length_text_le.trans (by decide)
  | status r => exact absurd rfl (h r)

/-- What a line looks like on the console tells what was logged. -/
theorem alike_of_shown {l l' : NodeLine} (h : Console.shown l.text = Console.shown l'.text) :
    l.Alike l' := by
  have htag : l.tag = l'.tag := by rw [← l.tag_shown, h, l'.tag_shown]
  cases l with
  | empty =>
    cases l' with
    | empty => exact .refl _
    | _ => exact absurd htag (by dsimp only [tag]; decide)
  | started node =>
    cases l' with
    | started node' =>
      rw [shown_text (by simp), shown_text (by simp)] at h
      rw [started_text h]
      exact .refl _
    | _ => exact absurd htag (by dsimp only [tag]; decide)
  | bitrates =>
    cases l' with
    | bitrates => exact .refl _
    | _ => exact absurd htag (by dsimp only [tag]; decide)
  | sweep enabled =>
    cases l' with
    | sweep enabled' =>
      rw [shown_text (by simp), shown_text (by simp)] at h
      have hsame : enabled = enabled' := by
        revert enabled enabled'
        decide
      rw [hsame]
      exact .refl _
    | _ => exact absurd htag (by dsimp only [tag]; decide)
  | bus l =>
    cases l' with
    | bus l' =>
      rw [shown_text (by simp), shown_text (by simp)] at h
      rw [LogLine.text_injective h]
      exact .refl _
    | _ => exact absurd htag (by dsimp only [tag]; decide)
  | status r =>
    cases l' with
    | status r' => exact .status (StatusReading.front_of_shown h)
    | _ => exact absurd htag (by dsimp only [tag]; decide)

end NodeLine

/-- A log on the console. -/
def nodeLog (lines : List NodeLine) : List UInt8 :=
  lines.flatMap fun l => Console.consoleText l.text

/-- The lines about the bus. -/
def busLines (lines : List NodeLine) : List LogLine := lines.filterMap NodeLine.bus?

theorem busLines_alike {lines lines' : List NodeLine}
    (h : List.Forall₂ NodeLine.Alike lines lines') : busLines lines = busLines lines' := by
  induction h with
  | nil => rfl
  | cons hl _ ih =>
    rw [busLines, busLines, List.filterMap_cons, List.filterMap_cons, ← busLines, ← busLines, ih]
    cases hl with
    | refl l => rfl
    | status hr => rfl

/-- The queue has taken the texts of these lines. -/
def Console.Logs {ι : Type} (s : Console ι) (lines : List NodeLine) : Prop :=
  (s.calls.filter (·.2.2)).map (·.2.1) = lines.map NodeLine.text

/-- **The console can be read.** Whatever tasks log the lines of a node, and however they interleave
with the log task, the lines that the queue has taken come out one behind the other. Another log
that looks the same has the same lines about the bus, and line by line the same of everything else,
but for the counters at the end of a status line. -/
theorem log_readable {ι : Type} [DecidableEq ι] {events : List (ConsoleEvent ι)} {s : Console ι}
    {lines : List NodeLine} (hrun : run Console.act Console.init events = some s)
    (hlogs : s.Logs lines) :
    (∃ n t, run Console.act s (List.replicate n .task) = some t ∧ t.task = none ∧
      t.uart = nodeLog lines) ∧
    ∀ lines', nodeLog lines' = nodeLog lines →
      List.Forall₂ NodeLine.Alike lines' lines ∧ busLines lines' = busLines lines := by
  constructor
  · obtain ⟨n, t, ht, hnone, huart⟩ :=
      Console.task_drains (Console.sound_run Console.sound_init hrun)
    refine ⟨n, t, ht, hnone, huart.trans ?_⟩
    have hflat : Console.accepted s.calls =
        ((s.calls.filter (·.2.2)).map (·.2.1)).flatMap Console.consoleText := by
      rw [List.flatMap_map]
      rfl
    rw [hflat, hlogs, List.flatMap_map]
    rfl
  · intro lines' h
    have halike : List.Forall₂ NodeLine.Alike lines' lines :=
      (forall₂_shown NodeLine.plain_text h).imp fun _ _ => NodeLine.alike_of_shown
    exact ⟨halike, busLines_alike halike⟩

/-- `app_start` logs its three lines, and a peer joins before the log task has written them. -/
def firstLines : List (ConsoleEvent Bool) :=
  [.start, .log true Console.staleLine (some NodeLine.empty.text), .step true,
    .log true Console.staleLine (some (NodeLine.started 1).text), .step true, .task,
    .log true Console.staleLine (some NodeLine.bitrates.text), .step true, .task,
    .log false Console.staleLine (some (NodeLine.bus (.joined 2 0 1 0)).text), .step false]

theorem log_readable_first : ∃ s : Console Bool, run Console.act Console.init firstLines = some s ∧
    (∃ n t, run Console.act s (List.replicate n .task) = some t ∧ t.task = none ∧
      t.uart = nodeLog [.empty, .started 1, .bitrates, .bus (.joined 2 0 1 0)]) ∧
    ∀ lines', nodeLog lines' = nodeLog [.empty, .started 1, .bitrates, .bus (.joined 2 0 1 0)] →
      busLines lines' = [.joined 2 0 1 0] := by
  obtain ⟨s, hrun, hlogs⟩ : ∃ s : Console Bool, run Console.act Console.init firstLines = some s ∧
      s.Logs [.empty, .started 1, .bitrates, .bus (.joined 2 0 1 0)] := ⟨_, rfl, rfl⟩
  obtain ⟨hout, hread⟩ := log_readable hrun hlogs
  exact ⟨s, hrun, hout, fun lines' h => (hread lines' h).2⟩

end Rjs

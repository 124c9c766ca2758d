import RobotJointStack.App.Sweep
import RobotJointStack.Tools.Agreement
import RobotJointStack.Tools.Log

/-!
# Tools.BusLog

The log of a network. Whatever frames of a run a listener on the bus has written down, with whatever
timestamps and from whatever interface, `main` prints all of them as what their senders meant.

* `nodeDecode_of_decoded`: what a decoder of a node reads, its mirror can read.
* `processLine_records`: one line.
* `log_transcribed`: a log of any run.
-/

namespace Rjs

open Network Candump Mirror

/-- A line of a log that shows the frame at the time `ts`. -/
def Records (f : CanFrame) (ts : Timestamp) (line : List Char) : Prop :=
  ∃ c : CandumpLine, c.WellFormed ∧ strip line = c.text ∧ float? c.ts = some ts ∧
    Hex.value c.id = f.id.toNat ∧ Hex.bytes? c.data = some (f.data.toList.take f.len.toNat)

/-- The lines of `dump_frames` are such lines. -/
theorem records_printFrame (f : CanFrame) : Records f ⟨0, 6⟩ (printFrame f) :=
  ⟨printed f, wellFormed_printed f, strip_printFrame f,
    (by decide : float? "0.000000".toList = some ⟨0, 6⟩), Hex.value_padded 3 f.id.toNat,
    Hex.bytes_padded _⟩

theorem nodeDecode_of_decoded {msg : Message} {g : CanFrame} (htype : idType g.id = msg.type.code)
    (hmsg : msg.DecodedFrom g) : nodeDecode g = some msg := by
  unfold nodeDecode
  rw [htype]
  cases msg with
  | heartbeat hb =>
    rw [hmsg default]
    simp only [Message.type, if_true, accepted, Option.map_some]
  | command cmd =>
    rw [hmsg default]
    simp only [Message.type, MsgType.code_inj, reduceCtorEq, if_false, if_true, accepted,
      Option.map_some]
  | jointState st =>
    rw [hmsg default]
    simp only [Message.type, MsgType.code_inj, reduceCtorEq, if_false, if_true, accepted,
      Option.map_some]
  | emergency em =>
    rw [hmsg default]
    simp only [Message.type, MsgType.code_inj, reduceCtorEq, if_false, if_true, accepted,
      Option.map_some]

/-- A line with a frame that a node's decoder reads. -/
theorem processLine_records {msg : Message} {g : CanFrame} {ts : Timestamp} {line : List Char}
    (hmsg : nodeDecode g = some msg) (hline : Records g ts line) :
    processLine line = .ok (some (.frame ts (msg.raw.decoded (idNode g.id).toNat))) := by
  obtain ⟨kind, hid⟩ := kind_of_nodeDecode (f := g) (by rw [hmsg]; rfl)
  obtain ⟨-, hlen, -, -⟩ := (nodeDecode_of_kind hid).mp hmsg
  have hunpack := unpack_of_nodeDecode (carries_take hlen) hmsg
  rw [processLine, parse_iff.mpr hline]
  simp only [Mirror.decode, hunpack]
  rfl

variable {ι : Type} {ids : ι → UInt8} {sent : List (ι × Transmission)}

/-- The line shows a frame that node `i` has sent, as it has arrived at the listener. -/
def Logged (sent : List (ι × Transmission)) (line : List Char) : Prop :=
  ∃ i t g ts, (i, t) ∈ sent ∧ t.Arrives g ∧ Records g ts line

/-- The line is printed as the message that its sender meant. -/
def Transcribed (ids : ι → UInt8) (sent : List (ι × Transmission)) (line : List Char)
    (out : Printed) : Prop :=
  ∃ i t g ts msg, (i, t) ∈ sent ∧ t.Arrives g ∧ Records g ts line ∧ Tells (ids i) t.1 msg ∧
    out = .frame ts (msg.raw.decoded (addressee (ids i) msg).toNat)

theorem transcribed_of_logged (hsent : ∀ i t, (i, t) ∈ sent → ∃ msg, Tells (ids i) t.1 msg)
    {line : List Char} (h : Logged sent line) :
    ∃ out, processLine line = .ok (some out) ∧ Transcribed ids sent line out := by
  obtain ⟨i, t, g, ts, hmem, harr, hline⟩ := h
  obtain ⟨msg, htells⟩ := hsent i t hmem
  obtain ⟨hid, hmsg⟩ := htells.arrives harr
  obtain ⟨htype, hnode⟩ := htells.id_eq
  rw [← hid] at htype hnode
  exact ⟨_, processLine_records (nodeDecode_of_decoded htype hmsg) hline,
    i, t, g, ts, msg, hmem, harr, hline, htells, by rw [hnode]⟩

theorem main_logged (hsent : ∀ i t, (i, t) ∈ sent → ∃ msg, Tells (ids i) t.1 msg)
    {lines : List (List Char)} (h : ∀ line ∈ lines, Logged sent line) :
    ∃ out, main lines = (out, none) ∧ List.Forall₂ (Transcribed ids sent) lines out := by
  induction lines with
  | nil => exact ⟨[], rfl, .nil⟩
  | cons line lines ih =>
    rw [List.forall_mem_cons] at h
    obtain ⟨out, hout, hmeans⟩ := transcribed_of_logged hsent h.1
    obtain ⟨outs, houts, hall⟩ := ih h.2
    exact ⟨out :: outs, by rw [main, hout, houts]; rfl, .cons hmeans hall⟩

variable [DecidableEq ι]

/-- **The log of the bus.** Of any run of a network, any log of frames on the bus, in any order, is
printed to its end: every line as the message that its sender meant, none as a bad frame. -/
theorem log_transcribed {clock : ι → UInt32} {events : List (ι × NodeEvent)}
    (hrun : (Node.network ids clock).IsRun nodeParty events) {lines : List (List Char)}
    (hlog : ∀ line ∈ lines, Logged ((Node.network ids clock).run nodeParty events).sent line) :
    ∃ out, main lines = (out, none) ∧
      List.Forall₂ (Transcribed ids ((Node.network ids clock).run nodeParty events).sent)
        lines out :=
  main_logged (fun i t hmem => (member_run hrun i).told t hmem) hlog

/-- The first heartbeat and the first command. -/
theorem log_transcribed_pair :
    ∃ out, main [printFrame firstHeartbeat,
        printFrame (Node.commandFrame 0 ⟨1, 90000, 90000, 1⟩)] = (out, none) := by
  have hlog : ∀ line ∈ [printFrame firstHeartbeat,
      printFrame (Node.commandFrame 0 ⟨1, 90000, 90000, 1⟩)],
      Logged ((Node.network pairIds fun _ => 0).run nodeParty firstCommand).sent line :=
    List.forall_mem_cons.mpr ⟨⟨0, (firstHeartbeat, .ok), _, _, by decide +kernel,
      arrives_self (by decide), records_printFrame _⟩, List.forall_mem_cons.mpr
        ⟨⟨0, (Node.commandFrame 0 ⟨1, 90000, 90000, 1⟩, .ok), _, _, by decide +kernel,
          arrives_self (by decide), records_printFrame _⟩, nofun⟩⟩
  obtain ⟨out, hout, -⟩ := log_transcribed firstCommand_isRun hlog
  exact ⟨out, hout⟩

end Rjs

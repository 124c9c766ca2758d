import RobotJointStack.App.Envelope
import RobotJointStack.App.Tasks

/-!
# App.Newest

Which command a joint obeys. The control task empties the command queue once an iteration, and the
last command out of it counts; but the queue holds four, and a send to a full queue is lost without
notice.

* `act_quiet`, `act_depth`: what each event does to the queue and the joint.
* `drain_joint`, `queue_quiet`: so a drain leaves the last of the first four commands accepted
  since the previous one.
* `newest_wins_iff`: when that is the newest.
-/

namespace Rjs
namespace Node

/-! ## Producers and consumer -/

/-- The command that the controller sends next, where it sends one. -/
def ownCommand? (n : Node) (down : Bool) (millis flip : UInt32) : Option Command :=
  if n.comms.pc = .reported then
    let n := { n with comms := { n.comms with pc := .idle } }.button down
    if n.sweepEnabled then some (n.sweep millis flip).nextCommand else none
  else none

/-- The command that an event puts in the command queue, or tries to. -/
def offered? (n : Node) : NodeEvent → Option Command
  | .frame f _ => acceptedCommand n.app.nodeId f
  | .command down millis flip _ => n.ownCommand? down millis flip
  | _ => none

def offered (n : Node) : List NodeEvent → List Command
  | [] => []
  | ev :: events => (n.offered? ev).toList ++ offered (n.act ev) events

section Events

variable {n : Node}

theorem encode_nextCommand (n : Node) :
    ∃ f, encodeCommand nodeBroadcast (some n.nextCommand) (some default) = (.ok, some f) := by
  have hvalid : commandValid nodeBroadcast n.nextCommand = true := rfl
  exact ⟨_, encode_eq_ok.mpr ⟨hvalid, rfl⟩⟩

theorem controllerCommand_app (n : Node) (down : Bool) (millis flip : UInt32) (sent : CanResult)
    (hpc : n.comms.pc = .reported) :
    (n.controllerCommand down millis flip sent).app =
      { n.app with cmdQueue := match n.ownCommand? down millis flip with
                               | some cmd => (n.app.cmdQueue.send cmd).2
                               | none => n.app.cmdQueue } := by
  unfold controllerCommand ownCommand?
  rw [if_pos hpc]
  dsimp only
  split
  · obtain ⟨f, hf⟩ := encode_nextCommand
      (({ n with comms := { n.comms with pc := .idle } }.button down).sweep millis flip)
    simp only [hf, canSend_app, sweep_app, button_app]
  · rfl

/-- What an event does to the application: frames and polls go to `App`, the control task drains
and steps, and the communication task at most sends a command. -/
theorem act_app (n : Node) (ev : NodeEvent) :
    (n.act ev).app =
      match ev with
      | .frame f millis => n.app.handleFrame f millis
      | .poll millis => n.app.act (.poll millis)
      | .control _ => { n.app.drain with joint := n.app.drain.joint.step controlPeriodMs }
      | _ => { n.app with cmdQueue := match n.offered? ev with
                                      | some cmd => (n.app.cmdQueue.send cmd).2
                                      | none => n.app.cmdQueue } := by
  cases ev with
  | frame f millis => rfl
  | poll millis => rfl
  | control sent =>
    simp only [act, control]
    split
    · split <;> simp
    · rfl
  | readSnapshot => simp only [act]; split <;> rfl
  | heartbeat cs millis sent =>
    simp only [act]
    split
    · simp only [sendHeartbeat]
      split <;> simp [offered?]
    · rfl
  | command down millis flip sent =>
    simp only [act]
    split
    · rename_i hpc
      exact controllerCommand_app n down millis flip sent hpc
    · rename_i hpc
      have hnone : n.ownCommand? down millis flip = none := if_neg hpc
      simp [offered?, hnone]

end Events

/-! ## Runs -/

/-- The next drain leaves the queue empty, having handed everything in it to the joint. -/
theorem drain_joint (a : App) :
    a.drain.joint = a.cmdQueue.items.foldl Joint.command a.joint ∧ a.drain.cmdQueue.items = [] ∧
      a.drain.cmdQueue.depth = a.cmdQueue.depth ∧ a.drain.nodeId = a.nodeId := by
  induction a using App.drain.induct with
  | case1 a cmd q h ih =>
    have hitems := Fifo.items_of_receive h
    have hdepth := Fifo.depth_of_receive h
    rw [App.drain, h, hitems, List.foldl_cons]
    rw [← hdepth]
    exact ih
  | case2 a h =>
    rw [App.drain, h, Fifo.receive_eq_none.mp h]
    exact ⟨rfl, rfl, rfl, rfl⟩

section Runs

variable {n : Node} {events quiet : List NodeEvent}

theorem act_quiet (ev : NodeEvent) (h : ∀ sent, ev ≠ .control sent) :
    (n.act ev).app.joint = n.app.joint ∧
      (n.act ev).app.cmdQueue =
        (n.offered? ev).toList.foldl (fun q cmd => (q.send cmd).2) n.app.cmdQueue := by
  rw [act_app]
  cases ev with
  | frame f millis =>
    obtain ⟨hjoint, -, hqueue⟩ := n.app.handleFrame_effect f millis
    dsimp only
    rw [hjoint, hqueue, offered?]
    cases acceptedCommand n.app.nodeId f <;> exact ⟨rfl, rfl⟩
  | control sent => exact absurd rfl (h sent)
  | command down millis flip sent =>
    dsimp only
    cases n.offered? (.command down millis flip sent) <;> exact ⟨rfl, rfl⟩
  | _ => exact ⟨rfl, rfl⟩

/-- Between two iterations of the control task the queue takes what the producers offer. -/
theorem run_quiet (n : Node) (h : ∀ sent, .control sent ∉ quiet) :
    (n.run quiet).app.joint = n.app.joint ∧
      (n.run quiet).app.cmdQueue =
        (n.offered quiet).foldl (fun q cmd => (q.send cmd).2) n.app.cmdQueue := by
  induction quiet generalizing n with
  | nil => exact ⟨rfl, rfl⟩
  | cons ev quiet ih =>
    obtain ⟨hjoint, hqueue⟩ := ih (n.act ev) fun sent hm => h sent (List.mem_cons_of_mem ev hm)
    obtain ⟨hjoint', hqueue'⟩ := n.act_quiet ev fun sent he => h sent (by rw [he]; simp)
    rw [offered, List.foldl_append, ← hqueue', ← hjoint']
    exact ⟨hjoint, hqueue⟩

theorem act_depth (n : Node) (ev : NodeEvent) :
    (n.act ev).app.cmdQueue.depth = n.app.cmdQueue.depth := by
  cases ev with
  | control sent => rw [act_app]; exact (drain_joint n.app).2.2.1
  | _ =>
    rw [(n.act_quiet _ (by simp)).2]
    exact (Fifo.items_sends _ _).2

theorem run_depth (n : Node) (events : List NodeEvent) :
    (n.run events).app.cmdQueue.depth = n.app.cmdQueue.depth := by
  induction events generalizing n with
  | nil => rfl
  | cons ev events ih => exact (ih (n.act ev)).trans (act_depth n ev)

theorem run_append (n : Node) (as bs : List NodeEvent) :
    n.run (as ++ bs) = (n.run as).run bs := List.foldl_append

/-- The last of a row of commands leaves its marks on the joint. -/
theorem command_last (j : Joint) {cmds : List Command} {cmd : Command}
    (h : cmds.getLast? = some cmd) :
    (cmds.foldl Joint.command j).lastSeq = cmd.sequence ∧
      (cmds.foldl Joint.command j).mode = cmd.mode := by
  obtain ⟨cmds, rfl⟩ := List.getLast?_eq_some_iff.mp h
  rw [List.foldl_concat]
  unfold Joint.command
  dsimp only
  split <;> exact ⟨rfl, rfl⟩

end Runs

/-- The run `before` ends with a drain, or is only beginning. -/
def JustDrained (before : List NodeEvent) : Prop :=
  before = [] ∨ ∃ earlier sent, before = earlier ++ [.control sent]

/-- The queue that a drain empties: the first four commands since the previous one. -/
theorem queue_quiet {nodeId : UInt8} {millis : UInt32} {before quiet : List NodeEvent}
    (hbefore : JustDrained before) (hquiet : ∀ sent, .control sent ∉ quiet) :
    ((start nodeId millis).run (before ++ quiet)).app.cmdQueue.items =
      (((start nodeId millis).run before).offered quiet).take cmdQueueDepth := by
  have hempty : ((start nodeId millis).run before).app.cmdQueue.items = [] := by
    cases hbefore with
    | inl h => rw [h]; rfl
    | inr h =>
      obtain ⟨earlier, sent, rfl⟩ := h
      rw [run_append, run, List.foldl_cons, List.foldl_nil, act_app]
      exact (drain_joint _).2.1
  have hdepth : ((start nodeId millis).run before).app.cmdQueue.depth = cmdQueueDepth :=
    run_depth _ _
  rw [run_append, (run_quiet _ hquiet).2, (Fifo.items_sends _ _).1, hempty, hdepth,
    List.nil_append]

/-- **When the newest command wins.** In every run of a node, after every drain before which a
producer has had a command accepted since the previous drain: the joint's sequence number and mode
are those of the last such command iff there were at most four of them, or the fourth, after which
the queue is full, has the same sequence number and mode. -/
theorem newest_wins_iff {nodeId : UInt8} {millis : UInt32} {before quiet : List NodeEvent}
    {cmd : Command} (hbefore : JustDrained before) (hquiet : ∀ sent, .control sent ∉ quiet)
    (hcmd : (((start nodeId millis).run before).offered quiet).getLast? = some cmd) :
    (((start nodeId millis).run (before ++ quiet)).app.drain.joint.lastSeq = cmd.sequence ∧
      ((start nodeId millis).run (before ++ quiet)).app.drain.joint.mode = cmd.mode) ↔
    (((start nodeId millis).run before).offered quiet).length ≤ 4 ∨
      ∃ fourth, (((start nodeId millis).run before).offered quiet)[3]? = some fourth ∧
        fourth.sequence = cmd.sequence ∧ fourth.mode = cmd.mode := by
  have hitems : ((start nodeId millis).run (before ++ quiet)).app.cmdQueue.items =
      (((start nodeId millis).run before).offered quiet).take cmdQueueDepth :=
    queue_quiet hbefore hquiet
  generalize ((start nodeId millis).run before).offered quiet = cmds at hcmd hitems ⊢
  rw [(drain_joint _).1, hitems]
  by_cases hlen : cmds.length ≤ 4
  · rw [cmdQueueDepth, List.take_of_length_le hlen]
    exact iff_of_true (command_last _ hcmd) (.inl hlen)
  · have hfour : 3 < cmds.length := by omega
    have hlast : (cmds.take cmdQueueDepth).getLast? = some cmds[3] := by
      rw [cmdQueueDepth, List.getLast?_take]
      simp [hfour]
    obtain ⟨hseq, hmode⟩ := command_last ((start nodeId millis).run (before ++ quiet)).app.joint hlast
    rw [hseq, hmode, or_iff_right hlen, List.getElem?_eq_getElem hfour]
    simp

/-- The frame in which a controller sends a command to the node. -/
def commandFrame (node : UInt8) (cmd : Command) : CanFrame :=
  { frameStart .command node commandLen with
    data := writeCommand cmd (frameStart .command node commandLen).data }

/-- The frames of commands of which the last one disables the joint. -/
def sweepThenDisable (node : UInt8) (positions : Nat) : List NodeEvent :=
  ((List.range positions).map fun i =>
    .frame (commandFrame node ⟨1, 90000, 90000, UInt16.ofNat (i + 1)⟩) 0) ++
  [.frame (commandFrame node ⟨0, 0, 0, UInt16.ofNat (positions + 1)⟩) 0]

/-- Three position commands and a DISABLED one: the joint is disabled. -/
theorem newest_wins_disabled :
    ((start 7 0).run ([] ++ sweepThenDisable 7 3)).app.drain.joint.lastSeq = 4 ∧
      ((start 7 0).run ([] ++ sweepThenDisable 7 3)).app.drain.joint.mode = 0 :=
  (@newest_wins_iff 7 0 [] (sweepThenDisable 7 3) ⟨0, 0, 0, 4⟩ (.inl rfl)
    (by simp [sweepThenDisable]) (by decide +kernel)).mpr (.inl (by decide +kernel))

/-- Four position commands and a DISABLED one: the joint goes on as if it had not come. -/
theorem newest_lost :
    ¬∀ (nodeId : UInt8) (millis : UInt32) (before quiet : List NodeEvent) (cmd : Command),
      JustDrained before → (∀ sent, .control sent ∉ quiet) →
      (((start nodeId millis).run before).offered quiet).getLast? = some cmd →
      ((start nodeId millis).run (before ++ quiet)).app.drain.joint.lastSeq = cmd.sequence ∧
        ((start nodeId millis).run (before ++ quiet)).app.drain.joint.mode = cmd.mode := by
  intro h
  have hlost := h 7 0 [] (sweepThenDisable 7 4) ⟨0, 0, 0, 5⟩ (.inl rfl)
    (by simp [sweepThenDisable]) (by decide +kernel)
  exact absurd hlost (by decide +kernel)

end Node
end Rjs

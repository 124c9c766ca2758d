import RobotJointStack.App.Sweep

/-!
# App.Stop

Stopping a network. Nothing on the bus tells the joints to stop: the button takes the controller out
of its sweep, and every joint stops by itself when its time limit runs out.

* `rest_act`: an iteration of `control_task` without a new command brings a joint nearer to rest.
* `offered?_of_silent`: with the sweep off and the bus free of old commands, there is none.
* `sweep_stops`: so after 751 iterations the joint stands still.
-/

namespace Rjs

open Network

namespace Node

/-- The iterations of `control_task` until the joint stands still, if no command is added to the
ones that wait. -/
def stepsToRest (n : Node) : Nat :=
  if n.app.cmdQueue.items = [] then
    n.app.joint.stepsToRest sweepVelocityMdegS.toInt controlConfig.commandTimeoutMs
  else 751

variable {ι : Type} [DecidableEq ι] {ids : ι → UInt8} {sent : List (ι × Transmission)} {i : ι}
  {n : Node} {ev : NodeEvent}

theorem stepsToRest_le (h : Member ids sent i n) : n.stepsToRest ≤ 751 := by
  unfold stepsToRest
  split
  · exact h.joint.attended.stepsToRest_le
  · exact le_rfl

theorem rest_act (h : Member ids sent i n) (hnone : n.offered? ev = none) :
    (n.act ev).stepsToRest ≤ n.stepsToRest - if ev.isControl then 1 else 0 := by
  by_cases hcontrol : ∃ result, ev = .control result
  · obtain ⟨result, rfl⟩ := hcontrol
    obtain ⟨hjoint, hitems, -, -⟩ := drain_joint n.app
    have hfold := obeys_commands h.joint h.queue
    have hstep := (Joint.attended_step rfl (by decide) (by decide) hfold.attended).2
    have htop := hfold.attended.stepsToRest_le
    have hafter : (n.act (.control result)).stepsToRest =
        ((n.app.cmdQueue.items.foldl Joint.command n.app.joint).step 1).stepsToRest
          sweepVelocityMdegS.toInt controlConfig.commandTimeoutMs := by
      rw [stepsToRest, act_app, ← hjoint]
      exact if_pos hitems
    rw [hafter]
    refine hstep.trans (Nat.sub_le_sub_right ?_ 1)
    unfold stepsToRest
    split
    · rename_i hempty
      rw [hempty]; exact le_rfl
    · exact htop
  · obtain ⟨hjoint, hqueue⟩ := n.act_quiet ev fun result he => hcontrol ⟨result, he⟩
    rw [hnone] at hqueue
    have hfalse : ev.isControl = false := by
      cases ev with
      | control result => exact absurd ⟨result, rfl⟩ hcontrol
      | _ => rfl
    rw [hfalse, stepsToRest, stepsToRest, hjoint, hqueue]
    exact le_rfl

/-- The sweep of a node is switched by its button only. -/
theorem act_sweepEnabled (hbutton : ∀ millis flip result, ev ≠ .command true millis flip result) :
    (n.act ev).sweepEnabled = n.sweepEnabled := by
  have hsend : ∀ (n : Node) result, (n.canSend result).sweepEnabled = n.sweepEnabled := by
    intro n result
    unfold canSend; split <;> rfl
  cases ev with
  | frame f millis => rfl
  | poll millis => rfl
  | control result =>
    simp only [act, control]
    split
    · split
      · exact hsend _ _
      · rfl
    · rfl
  | readSnapshot => simp only [act]; split <;> rfl
  | heartbeat cs millis result =>
    simp only [act]
    split
    · simp only [sendHeartbeat]
      split
      · exact hsend _ _
      · rfl
    · rfl
  | command down millis flip result =>
    cases down with
    | true => exact absurd rfl (hbutton millis flip result)
    | false =>
      simp only [act]
      split
      · simp only [controllerCommand]
        split
        · split
          · rw [hsend]
            unfold sweep; split <;> rfl
          · unfold sweep; split <;> rfl
        · rfl
      · rfl

/-- With the sweep off and the button up, a node issues nothing. -/
theorem issues?_of_silent (h : Member ids sent i n)
    (hsweep : ids i = controllerNodeId → n.sweepEnabled = false)
    (hbutton : ∀ millis flip result, ev ≠ .command true millis flip result) :
    n.issues? ev = none := by
  cases ev with
  | command down millis flip result =>
    cases down with
    | true => exact absurd rfl (hbutton millis flip result)
    | false =>
      rw [issues?, ownCommand?]
      split
      · rename_i hpc
        have hoff : (({ n with comms := { n.comms with pc := .idle } } : Node).button
            false).sweepEnabled = false := hsweep (h.reported hpc)
        simp [hoff]
      · rfl
  | _ => rfl

end Node

/-- A transmission that carries a command. -/
def Transmission.IsCommand (t : Transmission) : Prop := acceptedCommand nodeBroadcast t.1 ≠ none

section Stopped

variable {ι : Type}

/-- Nobody presses the button, and no command sent before, which are those in `old`, arrives any
more. -/
structure Silent (old : List (ι × Transmission)) (after : List (ι × NodeEvent)) : Prop where
  button : ∀ c millis flip result, (c, .command true millis flip result) ∉ after
  stale : ∀ i g millis, (i, .frame g millis) ∈ after →
    ∀ j t, (j, t) ∈ old → t.IsCommand → ¬t.Arrives g

/-- No controller sweeps, and all commands on the bus are old. -/
structure Stopped (ids : ι → UInt8) (old : List (ι × Transmission))
    (net : Network ι Node Transmission) : Prop where
  sweep : ∀ c, ids c = controllerNodeId → (net.node c).sweepEnabled = false
  commands : ∀ j t, (j, t) ∈ net.sent → t.IsCommand → (j, t) ∈ old

theorem Silent.tail {old : List (ι × Transmission)} {ev : ι × NodeEvent}
    {after : List (ι × NodeEvent)} (h : Silent old (ev :: after)) : Silent old after where
  button c millis flip result hm := h.button c millis flip result (List.mem_cons_of_mem ev hm)
  stale i g millis hm := h.stale i g millis (List.mem_cons_of_mem ev hm)

variable [DecidableEq ι] {ids : ι → UInt8} {net : Network ι Node Transmission}
  {after : List (ι × NodeEvent)} {old : List (ι × Transmission)} {i : ι} {ev : NodeEvent}

/-- No event offers a command to a joint. -/
theorem offered?_of_silent (hnet : net.Holds (Member ids)) (hstop : Stopped ids old net)
    (hsilent : Silent old ((i, ev) :: after))
    (hoff : ∀ r ∈ nodeParty.takes ev, Offers nodeParty net.sent i r) :
    (net.node i).offered? ev = none := by
  have hbutton : ∀ millis flip result, ev ≠ .command true millis flip result := by
    rintro millis flip result rfl
    exact hsilent.button i millis flip result List.mem_cons_self
  cases ev with
  | frame g millis =>
    obtain ⟨j, t, hmem, -, harr⟩ := hoff g rfl
    obtain ⟨msg, htells⟩ := (hnet j).told t hmem
    obtain ⟨hid, hdec⟩ := htells.arrives harr
    rw [Node.offered?, acceptedCommand_tells htells hid hdec]
    by_contra hcmd
    have hold : t.IsCommand := by
      rw [Transmission.IsCommand, acceptedCommand_tells htells rfl htells.decoded]
      exact hcmd
    exact hsilent.stale i g millis List.mem_cons_self j t (hstop.commands j t hmem hold) hold harr
  | command down millis flip result =>
    exact Node.issues?_of_silent (hnet i) (hstop.sweep i) hbutton
  | _ => rfl

theorem stopped_act (hnet : net.Holds (Member ids)) (hstop : Stopped ids old net)
    (hsilent : Silent old ((i, ev) :: after)) : Stopped ids old (net.act nodeParty (i, ev)) := by
  have hbutton : ∀ millis flip result, ev ≠ .command true millis flip result := by
    rintro millis flip result rfl
    exact hsilent.button i millis flip result List.mem_cons_self
  refine ⟨fun c hc => ?_, fun j t hmem hcmd => ?_⟩
  · by_cases hci : c = i
    · subst hci
      simp only [Network.act, Function.update_self]
      exact (Node.act_sweepEnabled hbutton).trans (hstop.sweep c hc)
    · simp only [Network.act, Function.update_of_ne hci]
      exact hstop.sweep c hc
  · cases List.mem_append.mp hmem with
    | inl hold => exact hstop.commands j t hold hcmd
    | inr hnew =>
      exfalso
      obtain ⟨t', ht', heq⟩ := List.mem_map.mp hnew
      cases heq
      obtain ⟨msg, htells, hmsg⟩ := (hnet i).means ht'
      rw [Node.issues?_of_silent (hnet i) (hstop.sweep i) hbutton] at hmsg
      exact hcmd (by rw [acceptedCommand_tells htells rfl htells.decoded, hmsg])

theorem stopped_run (hnet : net.Holds (Member ids)) (hstop : Stopped ids old net)
    (hsilent : Silent old after) (hrun : net.IsRun nodeParty after) (i : ι) :
    ((net.run nodeParty after).node i).stepsToRest ≤
      (net.node i).stepsToRest - (own i after).countP (·.isControl) := by
  induction after generalizing net with
  | nil => exact le_rfl
  | cons ev after ih =>
    obtain ⟨k, ev⟩ := ev
    have hrest := ih ((member_sound ids).act hnet hrun.1) (stopped_act hnet hstop hsilent)
      hsilent.tail hrun.2
    refine hrest.trans ?_
    by_cases hk : k = i
    · subst hk
      have hstep := Node.rest_act (hnet k) (offered?_of_silent hnet hstop hsilent hrun.1)
      simp only [Network.act, Function.update_self, own, List.filterMap_cons, if_true,
        List.countP_cons]
      change (Node.act _ ev).stepsToRest - _ ≤ _
      omega
    · simp [Network.act, Function.update_of_ne (Ne.symm hk), own, hk]

/-- **The sweep stops.** In every run of a network: when no controller sweeps, nobody presses a
button and no command sent before arrives any more, every joint is disabled and stands still after
751 iterations of its control task. -/
theorem sweep_stops {clock : ι → UInt32} {before after : List (ι × NodeEvent)}
    (hrun : (Node.network ids clock).IsRun nodeParty (before ++ after))
    (hsweep : ∀ c, ids c = controllerNodeId →
      (((Node.network ids clock).run nodeParty before).node c).sweepEnabled = false)
    (hsilent : Silent ((Node.network ids clock).run nodeParty before).sent after) (i : ι)
    (hlong : 751 ≤ (own i after).countP (·.isControl)) :
    let j := (((Node.network ids clock).run nodeParty (before ++ after)).node i).app.joint
    j.mode = JointMode.disabled.code ∧ j.velocityMdegS = 0 := by
  intro j
  obtain ⟨hbefore, hafter⟩ := (isRun_append _ _ _).mp hrun
  have hnet : ((Node.network ids clock).run nodeParty before).Holds (Member ids) :=
    member_run hbefore
  have hrest := stopped_run hnet ⟨hsweep, fun _ _ hmem _ => hmem⟩ hsilent hafter i
  have hle := Node.stepsToRest_le (hnet i)
  have hmember := member_run hrun i
  rw [← run_append] at hrest
  refine hmember.joint.attended.rest ?_
  rw [Node.stepsToRest] at hrest
  split at hrest
  · omega
  · omega

end Stopped

/-- The button is pressed after the first command, and the joint goes on alone. -/
theorem sweep_stops_pair :
    (((Node.network pairIds fun _ => 0).run nodeParty
      ((firstCommand ++ [(0, .readSnapshot), (0, .heartbeat ⟨false, false⟩ 200 .ok),
        (0, .command true 200 200 .ok)]) ++
          (List.replicate 751 (NodeEvent.control .ok)).map (1, ·))).node
            1).app.joint.velocityMdegS = 0 := by
  have hbefore : (Node.network pairIds fun _ => 0).IsRun nodeParty
      (firstCommand ++ [(0, .readSnapshot), (0, .heartbeat ⟨false, false⟩ 200 .ok),
        (0, .command true 200 200 .ok)]) :=
    (isRun_append _ _ _).mpr ⟨firstCommand_isRun, nofun, nofun, nofun, trivial⟩
  refine (sweep_stops ((isRun_append _ _ _).mpr ⟨hbefore, isRun_row fun ev hev => ?_⟩)
    (by decide +kernel) ⟨fun c millis flip result hm => ?_, fun i g millis hm => ?_⟩ 1 ?_).2
  · rw [List.eq_of_mem_replicate hev]; nofun
  · obtain ⟨ev, hev, he⟩ := List.mem_map.mp hm
    rw [List.eq_of_mem_replicate hev] at he
    cases he
  · obtain ⟨ev, hev, he⟩ := List.mem_map.mp hm
    rw [List.eq_of_mem_replicate hev] at he
    cases he
  · have hown := own_append_self (1 : Fin 2) [] (List.replicate 751 (NodeEvent.control .ok))
    rw [List.nil_append] at hown
    rw [hown, show own (1 : Fin 2) ([] : List (Fin 2 × NodeEvent)) = [] from rfl,
      List.nil_append, List.countP_replicate]
    exact le_rfl

end Rjs

import RobotJointStack.Ui.StatusScreen
import RobotJointStack.Ui.Tracking

/-!
# Ui.Overwrite

The status screen has no memory: whatever it has shown, one cycle leaves the panel as it would leave
a new one.

* `run_agree`: two displays with the same current colours agree, after the same writes, wherever
  they agreed before or a write puts ink.
* `inks_render`: every view puts ink on the same places.
* `history_independent`: so the last view decides what is on the panel.
-/

namespace Rjs

open TextScreen

/-! ## Where operations put ink -/

namespace ScreenOp

/-- Some of the operations put ink at `p`. -/
def Inks (ops : List ScreenOp) (p : Pos) : Prop := ∃ op ∈ ops, op.ink p ≠ none

variable {ops ops' : List ScreenOp} {p : Pos}

@[simp] theorem inks_nil : Inks [] p ↔ False := by simp [Inks]

@[simp] theorem inks_cons {op : ScreenOp} : Inks (op :: ops) p ↔ op.ink p ≠ none ∨ Inks ops p := by
  simp [Inks]

@[simp] theorem inks_append : Inks (ops ++ ops') p ↔ Inks ops p ∨ Inks ops' p := by
  simp only [Inks, List.mem_append, or_and_right, exists_or]

theorem inks_flatMap {ι : Type} {l : List ι} {f : ι → List ScreenOp} :
    Inks (l.flatMap f) p ↔ ∃ i ∈ l, Inks (f i) p := by
  simp only [Inks, List.mem_flatMap]
  constructor
  · rintro ⟨op, ⟨i, hi, hop⟩, hink⟩
    exact ⟨i, hi, op, hop, hink⟩
  · rintro ⟨i, hi, op, hop, hink⟩
    exact ⟨op, ⟨i, hi, hop⟩, hink⟩

@[simp] theorem ink_setColors (fg bg : UInt16) : (setColors fg bg).ink p ≠ none ↔ False := by
  simp [ink]

@[simp] theorem ink_clearRow (row : UInt8) :
    (clearRow row).ink p ≠ none ↔ p.1.val = row.toNat := by
  simp [ink, rowInk]

/-- A line from the left edge fills its row, whatever the text. -/
@[simp] theorem ink_line (row : UInt8) (text : List UInt8) :
    (StatusScreen.line row text).ink p ≠ none ↔ p.1.val = row.toNat := by
  simp only [StatusScreen.line, ink, printInk, rowInk]
  by_cases hrow : p.1.val = row.toNat
  · simp [hrow]
  · simp [hrow]

theorem ink_bar {row width : UInt8} {permille : UInt16} :
    (bar row 0 width permille).ink p ≠ none ↔ p.1.val = row.toNat ∧ p.2.val < width.toNat := by
  have hcell : barCell 0 p.2.val = p.2.val := by
    rw [barCell, UInt8.sub_zero]
    exact UInt8.toNat_ofNat_of_lt' (Nat.lt_of_lt_of_le p.2.isLt (by decide))
  simp only [ink, barInk, rowInk, hcell]
  by_cases hrow : p.1.val = row.toNat
  · simp [hrow]
  · simp [hrow]

end ScreenOp

/-! ## Two displays under the same writes -/

namespace Display

theorem run_append (d : Display) (ops ops' : List ScreenOp) :
    d.run (ops ++ ops') = (d.run ops).run ops' := List.foldl_append

/-- The current colours of two displays are the same. -/
def SameColors (d d' : Display) : Prop :=
  d.screen.curFg = d'.screen.curFg ∧ d.screen.curBg = d'.screen.curBg

variable {d d' : Display}

theorem act_agree {op : ScreenOp} (hop : op.IsWrite) (hcolors : SameColors d d') :
    SameColors (d.act op) (d'.act op) ∧
      ∀ p, d.screen.cell p = d'.screen.cell p ∨ op.ink p ≠ none →
        (d.act op).screen.cell p = (d'.act op).screen.cell p := by
  have h := d.written_act hop
  have h' := d'.written_act hop
  constructor
  · have he : op.colors d.screen = op.colors d'.screen := by
      unfold ScreenOp.colors
      rw [hcolors.1, hcolors.2]
    rw [← h.colors, ← h'.colors] at he
    exact Prod.mk.inj he
  · intro p hp
    rw [h.cell, h'.cell, hcolors.1, hcolors.2]
    cases hink : op.ink p with
    | some ch => rfl
    | none => exact hp.resolve_right (not_not.mpr hink)

theorem run_agree {ops : List ScreenOp} (hops : ∀ op ∈ ops, op.IsWrite)
    (hcolors : SameColors d d') (p : Pos)
    (hp : d.screen.cell p = d'.screen.cell p ∨ ScreenOp.Inks ops p) :
    (d.run ops).screen.cell p = (d'.run ops).screen.cell p := by
  induction ops generalizing d d' with
  | nil => exact hp.resolve_right (mt ScreenOp.inks_nil.mp not_false)
  | cons op ops ih =>
    obtain ⟨hop, hops⟩ := List.forall_mem_cons.mp hops
    obtain ⟨hnext, hcell⟩ := act_agree hop hcolors
    rw [ScreenOp.inks_cons, ← or_assoc] at hp
    exact ih hops hnext (hp.imp_left (hcell p))

/-- Writes leave alone what they put no ink on. -/
theorem run_cell {ops : List ScreenOp} (hops : ∀ op ∈ ops, op.IsWrite) {p : Pos}
    (hp : ¬ScreenOp.Inks ops p) : (d.run ops).screen.cell p = d.screen.cell p := by
  induction ops generalizing d with
  | nil => rfl
  | cons op ops ih =>
    obtain ⟨hop, hops⟩ := List.forall_mem_cons.mp hops
    rw [ScreenOp.inks_cons, not_or, not_not] at hp
    refine (ih hops hp.2).trans ?_
    rw [(d.written_act hop).cell, hp.1]

end Display

/-! ## The status screen -/

namespace StatusScreen

open ScreenOp

/-- The places that a view is shown at. -/
def Used (p : Pos) : Prop :=
  p.1.val ∉ [2, 4, 6, 12, 17, 19] ∨ p.1.val = 4 ∧ p.2.val < 24

theorem isWrite_renderPeer (v : AppView) (i : Fin viewPeers) :
    ∀ op ∈ renderPeer v i, op.IsWrite := by
  unfold renderPeer
  split <;> simp [line, IsWrite]

theorem isWrite_renderStatus (v : AppView) : ∀ op ∈ renderStatus v, op.IsWrite := by
  unfold renderStatus
  split
  · simp [line, IsWrite]
  · split
    · simp [line, IsWrite]
    · split <;> simp [line, IsWrite]

theorem isWrite_render (v : AppView) : ∀ op ∈ render v, op.IsWrite := by
  intro op hop
  simp only [render, renderPeers, List.mem_append, List.mem_flatMap] at hop
  obtain (((hop | hop) | (hop | ⟨i, -, hop⟩)) | hop) | hop := hop
  · revert op; simp [renderHeader, line, IsWrite]
  · revert op; simp [renderJoint, line, IsWrite]
  · revert op; simp [line, IsWrite]
  · exact isWrite_renderPeer v i op hop
  · revert op; simp [renderBus, line, IsWrite]
  · exact isWrite_renderStatus v op hop

/-- A peer's row is written as a whole, whether there is a peer or not. -/
theorem inks_renderPeer (v : AppView) (i : Fin viewPeers) (p : Pos) :
    Inks (renderPeer v i) p ↔ p.1.val = 8 + i.val := by
  have hrow : (8 + UInt8.ofNat i.val).toNat = 8 + i.val := by
    have hi : i.val < 4 := i.isLt
    simp [UInt8.toNat_add]
    omega
  unfold renderPeer
  split <;> simp [hrow]

theorem inks_renderStatus (v : AppView) (p : Pos) : Inks (renderStatus v) p ↔ p.1.val = 18 := by
  unfold renderStatus
  split
  · simp
  · split
    · simp
    · split <;> simp

theorem inks_render (v : AppView) (p : Pos) : Inks (render v) p ↔ Used p := by
  have hpeers : (∃ i ∈ List.finRange viewPeers, Inks (renderPeer v i) p) ↔
      8 ≤ p.1.val ∧ p.1.val < 12 := by
    simp only [inks_renderPeer, List.mem_finRange, true_and]
    constructor
    · rintro ⟨i, hi⟩
      have hlt : i.val < 4 := i.isLt
      omega
    · rintro ⟨hlo, hhi⟩
      have hlt : p.1.val - 8 < viewPeers := by unfold viewPeers; omega
      exact ⟨⟨p.1.val - 8, hlt⟩, by simp; omega⟩
  have hrows : p.1.val < 20 := p.1.isLt
  simp only [render, renderHeader, renderJoint, renderPeers, renderBus, inks_append, inks_cons,
    inks_nil, ink_setColors, ink_line, ink_bar, inks_flatMap, hpeers, inks_renderStatus, Used]
  simp [-Fin.val_eq_zero_iff]
  omega

section Cycle

variable {d d' : Display}

/-- After a cycle the panel shows what has been rendered. -/
theorem panel_cycle (h : d.Tracked) (v : AppView) (p : Pos) :
    (d.run (cycle v)).panel p = (d.run (render v)).screen.cell p := by
  rw [cycle, Display.run_snoc]
  exact (Display.act_flush (Display.tracked_run h (render v)) p).1

theorem cell_cycle_unused (h : d.Tracked) (v : AppView) {p : Pos} (hp : ¬Used p) :
    (d.run (cycle v)).screen.cell p = d.screen.cell p := by
  rw [cycle, Display.run_snoc, (Display.act_flush (Display.tracked_run h (render v)) p).2.1]
  exact Display.run_cell (isWrite_render v) (mt (inks_render v p).mp hp)

theorem cell_cycles_unused (h : d.Tracked) (views : List AppView) {p : Pos} (hp : ¬Used p) :
    (d.run (views.flatMap cycle)).screen.cell p = d.screen.cell p := by
  induction views generalizing d with
  | nil => rfl
  | cons v views ih =>
    rw [List.flatMap_cons, Display.run_append, ih (Display.tracked_run h (cycle v)),
      cell_cycle_unused h v hp]

/-- A view sets its colours first, so what it draws does not depend on the colours before it. -/
theorem render_agree (v : AppView) (hunused : ∀ p, ¬Used p → d.screen.cell p = d'.screen.cell p)
    (p : Pos) : (d.run (render v)).screen.cell p = (d'.run (render v)).screen.cell p := by
  obtain ⟨ops, hops⟩ : ∃ ops, render v = .setColors blue bg :: ops := ⟨_, rfl⟩
  have hwrite := isWrite_render v
  have hinks := inks_render v p
  rw [hops] at hwrite hinks ⊢
  rw [inks_cons, ink_setColors, false_or] at hinks
  have hcolors : Display.SameColors (d.act (.setColors blue bg)) (d'.act (.setColors blue bg)) :=
    ⟨rfl, rfl⟩
  refine Display.run_agree (List.forall_mem_cons.mp hwrite).2 hcolors p ?_
  by_cases hp : Used p
  · exact .inr (hinks.mpr hp)
  · exact .inl (hunused p hp)

end Cycle

/-- The last view decides what is on the panel, whatever has been shown before. -/
theorem history_independent (views : List AppView) (v : AppView) (panel fresh : Panel) :
    ((start panel).run ((views ++ [v]).flatMap cycle)).panel =
      ((start fresh).run (cycle v)).panel := by
  have hstart : ∀ panel, (start panel).Tracked := fun panel => Display.tracked_start white bg panel
  have hviews := Display.tracked_run (hstart panel) (views.flatMap cycle)
  funext p
  rw [List.flatMap_append, List.flatMap_singleton, Display.run_append, panel_cycle hviews,
    panel_cycle (hstart fresh)]
  refine render_agree v (fun q hq => ?_) p
  rw [cell_cycles_unused (hstart panel) views hq]
  rfl

end StatusScreen

end Rjs

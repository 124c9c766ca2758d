import RobotJointStack.Board.Panel
import RobotJointStack.Ui.Glyph
import RobotJointStack.Ui.StatusScreen
import RobotJointStack.Ui.Tracking

/-!
# Ui.Glass

The display from the text to the glass: `ui_task` flushes its screen through `draw_cell`, which
renders a cell and blits it, and the driver's bytes end up in the panel. In `Ui.TextScreen` a flush
draws on a panel of cells; here that panel is what the real one shows, cell by cell.

* `shows_drawCell`: a blit of a rendered cell changes that cell only.
* `mirrors_run`: so the glass and the panel of cells go together.
* `glass_shows`: after a flush the glass shows the text.
-/

namespace Rjs

theorem length_chunkAfter (chunk : List UInt8) (ops : List DisplayOp) :
    (chunkAfter chunk ops).length = chunk.length := by
  fun_induction chunkAfter chunk ops with
  | case1 => rfl
  | case2 chunk i byte ops ih => rw [ih, List.length_set]
  | case3 chunk op ops _ ih => exact ih

/-- The driver's buffer and the panel. -/
structure Glass where
  chunk : List UInt8
  size : chunk.length = chunkBytes
  panel : St7789

namespace Glass

/-- A call of the driver. -/
def issue (g : Glass) (ops : List DisplayOp) : Glass where
  chunk := chunkAfter g.chunk ops
  size := (length_chunkAfter _ _).trans g.size
  panel := g.panel.feed (busTrace g.chunk ops)

/-- `draw_cell` of `ui.c`. -/
def drawCell : DrawCb Glass := fun row col cell g =>
  let pixels := renderCell cell
  g.issue (boardDisplayBlit true (col.toUInt16 * 8) (row.toUInt16 * 16) 8 16
    fun i => pixels[i]?.getD 0)

/-- The glass shows the cells of a panel. -/
structure Shows (g : Glass) (panel : Panel) : Prop where
  mode : g.panel.mode = .running
  ram : ∀ (p : Pos) (y : Fin 16) (x : Fin 8),
    g.panel.raster.ram (8 * p.2.val + x.val) (16 * p.1.val + y.val) =
      (renderCell (panel p))[8 * y.val + x.val]

end Glass

/-- A text screen and the glass it is flushed to. -/
structure GlassDisplay where
  screen : TextScreen
  glass : Glass

namespace GlassDisplay

/-- `ui_task` up to its loop, whatever is in `s_chunk` and in the panel. -/
def start (g : Glass) : GlassDisplay :=
  ⟨.init StatusScreen.white StatusScreen.bg, g.issue boardDisplayInit⟩

def act (d : GlassDisplay) : ScreenOp → GlassDisplay
  | .setColors fg bg => { d with screen := d.screen.setColors fg bg }
  | .print row col text => { d with screen := d.screen.print row col text }
  | .printLine row col text => { d with screen := d.screen.printLine row col text }
  | .bar row col width permille => { d with screen := d.screen.bar row col width permille }
  | .clearRow row => { d with screen := d.screen.clearRow row }
  | .markAllDirty => { d with screen := d.screen.markAllDirty }
  | .flush =>
    let (_, glass, screen) := d.screen.flush (some Glass.drawCell) d.glass
    ⟨screen, glass⟩

def run (d : GlassDisplay) (ops : List ScreenOp) : GlassDisplay := ops.foldl act d

end GlassDisplay

/-! ## One cell -/

section Cell

variable {row col : UInt8}

theorem toNat_cell (hrow : row.toNat < tsRows) (hcol : col.toNat < tsCols) :
    (col.toUInt16 * 8).toNat = 8 * col.toNat ∧ (row.toUInt16 * 16).toNat = 16 * row.toNat := by
  have hrow' : row.toNat < 20 := hrow
  have hcol' : col.toNat < 30 := hcol
  have height : (8 : UInt16).toNat = 8 := rfl
  have hsixteen : (16 : UInt16).toNat = 16 := rfl
  rw [UInt16.toNat_mul, UInt16.toNat_mul, UInt8.toNat_toUInt16, UInt8.toNat_toUInt16, height,
    hsixteen]
  omega

theorem inside_cell (hrow : row.toNat < tsRows) (hcol : col.toNat < tsCols) :
    Inside (col.toUInt16 * 8) (row.toUInt16 * 16) 8 16 := by
  obtain ⟨hx, hy⟩ := toNat_cell hrow hcol
  have hrow' : row.toNat < 20 := hrow
  have hcol' : col.toNat < 30 := hcol
  refine ⟨by decide, by decide, ?_, ?_⟩
  · rw [hx]; show 8 * col.toNat + 8 ≤ 240; omega
  · rw [hy]; show 16 * row.toNat + 16 ≤ 320; omega

/-- Drawing a cell on the glass is drawing it on the panel of cells. -/
theorem shows_drawCell {g : Glass} {panel : Panel} (h : g.Shows panel) (hrow : row.toNat < tsRows)
    (hcol : col.toNat < tsCols) (cell : Cell) :
    (Glass.drawCell row col cell g).Shows (drawCell row col cell panel) := by
  obtain ⟨hx, hy⟩ := toNat_cell hrow hcol
  have hdrew := St7789.drew_rectangle (inside_cell hrow hcol) g.panel
    fun i => (renderCell cell)[i]?.getD 0
  rw [← busTrace_blit (inside_cell hrow hcol) _ g.size] at hdrew
  refine ⟨hdrew.mode.trans h.mode, fun p y x => ?_⟩
  refine (congrFun (congrFun hdrew.ram _) _).trans ?_
  have hpy := y.isLt
  have hpx := x.isLt
  have height : (8 : UInt16).toNat = 8 := rfl
  have hsixteen : (16 : UInt16).toNat = 16 := rfl
  rw [St7789.overlay, hx, hy, height, hsixteen, drawCell]
  by_cases hp : p.1.val = row.toNat ∧ p.2.val = col.toNat
  · rw [if_pos hp, if_pos (by omega)]
    have hindex : (16 * p.1.val + y.val - 16 * row.toNat) * 8 +
        (8 * p.2.val + x.val - 8 * col.toNat) = 8 * y.val + x.val := by omega
    rw [hindex, Vector.getElem?_eq_getElem (by omega), Option.getD_some]
  · rw [if_neg hp, if_neg (by omega)]
    exact h.ram p y x

end Cell

/-! ## A run -/

/-- A flush draws the same cells on both. -/
theorem shows_flush {g : Glass} {panel : Panel} {s : TextScreen} (h : g.Shows panel)
    (hb : s.InBounds) :
    (s.flush (some Glass.drawCell) g).2.2 = (s.flush (some drawCell) panel).2.2 ∧
      (s.flush (some Glass.drawCell) g).2.1.Shows (s.flush (some drawCell) panel).2.1 := by
  rw [TextScreen.flush_eq hb, TextScreen.flush_eq hb]
  refine ⟨rfl, ?_⟩
  dsimp only
  generalize s.marks = marks
  induction marks generalizing g panel with
  | nil => exact h
  | cons p marks ih =>
    have hrow : (UInt8.ofNat p.1.val).toNat < tsRows := by
      rw [UInt8.toNat_ofNat_of_lt' (Nat.lt_of_lt_of_le p.1.isLt (by decide))]; exact p.1.isLt
    have hcol : (UInt8.ofNat p.2.val).toNat < tsCols := by
      rw [UInt8.toNat_ofNat_of_lt' (Nat.lt_of_lt_of_le p.2.isLt (by decide))]; exact p.2.isLt
    exact ih (shows_drawCell h hrow hcol (s.cell p))

/-- The glass goes with the panel of cells. -/
structure Mirrors (d : GlassDisplay) (e : Display) : Prop where
  screen : d.screen = e.screen
  glass : d.glass.Shows e.panel

theorem mirrors_act {d : GlassDisplay} {e : Display} (h : Mirrors d e) (he : e.Tracked)
    (op : ScreenOp) : Mirrors (d.act op) (e.act op) := by
  obtain ⟨hscreen, hglass⟩ := h
  cases op with
  | flush =>
    obtain ⟨hs, hg⟩ := shows_flush hglass he.inBounds
    simp only [GlassDisplay.act, Display.act, hscreen]
    exact ⟨hs, hg⟩
  | _ => exact ⟨by simp only [GlassDisplay.act, Display.act, hscreen], hglass⟩

theorem mirrors_run {d : GlassDisplay} {e : Display} (h : Mirrors d e) (he : e.Tracked)
    (ops : List ScreenOp) : Mirrors (d.run ops) (e.run ops) := by
  induction ops generalizing d e with
  | nil => exact h
  | cons op ops ih => exact ih (mirrors_act h he op) (Display.tracked_act he op)

/-- The black panel, as cells. -/
def blackPanel : Panel := fun _ => ⟨blank, 0, 0⟩

theorem mirrors_start (g : Glass) :
    Mirrors (GlassDisplay.start g) (StatusScreen.start blackPanel) := by
  obtain ⟨hmode, hram⟩ := St7789.init_shows g.panel g.size
  refine ⟨rfl, hmode, fun p y x => ?_⟩
  have hp1 : p.1.val < 20 := p.1.isLt
  have hp2 : p.2.val < 30 := p.2.isLt
  have hblack : Printable (blackPanel p).ch := by show Printable blank; decide
  refine (hram _ (by omega) _ (by omega)).trans ?_
  show 0 = (renderCell (blackPanel p))[8 * y.val + x.val]
  rw [renderCell_getElem hblack (by omega)]
  exact (ite_self _).symm

/-- A pixel of a place, as it is to be seen. -/
def GlassDisplay.pixel (d : GlassDisplay) (p : Pos) (y : Fin 16) (x : Fin 8) : Option UInt16 :=
  d.glass.panel.picture (8 * p.2.val + x.val) (16 * p.1.val + y.val)

theorem Glass.Shows.pixel {d : GlassDisplay} {panel : Panel} (h : d.glass.Shows panel) (p : Pos)
    (y : Fin 16) (x : Fin 8) :
    d.pixel p y x = some (renderCell (panel p))[8 * y.val + x.val] := by
  rw [GlassDisplay.pixel, St7789.picture, if_pos h.mode, h.ram]

section Shown

variable (g : Glass) (ops : List ScreenOp) (p : Pos) (y : Fin 16) (x : Fin 8)

/-- The panel of cells that goes with the glass. -/
def cellsShown : Display := (StatusScreen.start blackPanel).run ops

theorem tracked_cellsShown : (cellsShown ops).Tracked :=
  Display.tracked_run (Display.tracked_start StatusScreen.white StatusScreen.bg blackPanel) ops

theorem mirrors_cellsShown : Mirrors ((GlassDisplay.start g).run ops) (cellsShown ops) :=
  mirrors_run (mirrors_start g) (Display.tracked_start _ _ blackPanel) ops

/-- The pixels after a flush. -/
theorem pixel_flush :
    (((GlassDisplay.start g).run ops).act .flush).pixel p y x =
      some (renderCell (((GlassDisplay.start g).run ops).screen.cell p))[8 * y.val + x.val] := by
  have h := mirrors_cellsShown g ops
  have htracked := tracked_cellsShown ops
  rw [(mirrors_act h htracked .flush).glass.pixel, (Display.act_flush htracked p).1, ← h.screen]

end Shown

/-- **The glass shows the text.** Whatever was in the panel and the driver's buffer at first, and
whatever the task does with its screen: the glass always shows what the flushes have drawn, cell by
cell and pixel by pixel, on black; and after a flush that is the screen. -/
theorem glass_shows (g : Glass) (ops : List ScreenOp) (p : Pos) (y : Fin 16) (x : Fin 8) :
    let d := (GlassDisplay.start g).run ops
    d.pixel p y x = some (renderCell ((cellsShown ops).panel p))[8 * y.val + x.val] ∧
      (d.act .flush).pixel p y x = some (renderCell (d.screen.cell p))[8 * y.val + x.val] :=
  ⟨(mirrors_cellsShown g ops).glass.pixel p y x, pixel_flush g ops p y x⟩

end Rjs

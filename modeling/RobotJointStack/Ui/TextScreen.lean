import RobotJointStack.Lib.BitScan

/-!
# Ui.TextScreen

The character screen with change tracking of `text_screen.c`. The three arrays of characters and
colours are one of cells. Formatting is the business of `vsnprintf`: a print takes the formatted
text, or nothing where formatting fails, and the print sees of it what fits its buffer. A `Display`
is a screen together with the panel that its flushes draw on.
-/

namespace Rjs

/-- `RJS_TS_COLS`. -/
abbrev tsCols : Nat := 30

/-- `RJS_TS_ROWS`. -/
abbrev tsRows : Nat := 20

/-- What is on the screen at one place: `ch`, `fg` and `bg` of it. -/
structure Cell where
  ch : UInt8
  fg : UInt16
  bg : UInt16
deriving DecidableEq, Repr, Inhabited

/-- `rjs_text_screen_t`. -/
structure TextScreen where
  cells : Vector (Vector Cell tsCols) tsRows
  dirty : Vector UInt32 tsRows
  curFg : UInt16
  curBg : UInt16

/-- `rjs_ts_draw_cb_t`. -/
abbrev DrawCb (σ : Type) := UInt8 → UInt8 → Cell → σ → σ

/-- The space character. -/
def blank : UInt8 := 0x20

namespace TextScreen

def putChar (s : TextScreen) (row col ch : UInt8) : TextScreen :=
  if h : row.toNat < tsRows ∧ col.toNat < tsCols then
    have hr := h.1
    have hc := h.2
    let cell : Cell := ⟨ch, s.curFg, s.curBg⟩
    -- only a real change costs SPI traffic later
    if s.cells[row.toNat][col.toNat] = cell then s
    else
      { s with cells := s.cells.set row.toNat (s.cells[row.toNat].set col.toNat cell)
               dirty := s.dirty.set row.toNat (s.dirty[row.toNat] ||| ((1 : UInt32) <<< col.toUInt32)) }
  else s

def markAllDirty (s : TextScreen) : TextScreen :=
  let all : UInt32 := ((1 : UInt32) <<< 30) - 1
  { s with dirty := Vector.replicate tsRows all }

def init (fg bg : UInt16) : TextScreen :=
  { cells := Vector.replicate tsRows (Vector.replicate tsCols ⟨blank, fg, bg⟩)
    dirty := Vector.replicate tsRows 0
    curFg := fg
    curBg := bg : TextScreen }.markAllDirty

def setColors (s : TextScreen) (fg bg : UInt16) : TextScreen := { s with curFg := fg, curBg := bg }

/-- The columns from `col` to the right edge, as a loop `for (; c < RJS_TS_COLS; ++c)` counts. -/
def columnsFrom (col : UInt8) : List UInt8 :=
  (List.range' col.toNat (tsCols - col.toNat)).map UInt8.ofNat

/-- The first loop of `print_v`; also the column it stops at. -/
def putText (s : TextScreen) (row col : UInt8) : List UInt8 → TextScreen × UInt8
  | [] => (s, col)
  | ch :: text =>
    if col.toNat < tsCols then putText (s.putChar row col ch) row (col + 1) text else (s, col)

def padRow (s : TextScreen) (row col : UInt8) : TextScreen :=
  (columnsFrom col).foldl (fun s c => s.putChar row c blank) s

/-- What `vsnprintf` leaves in `buf`, up to the terminating zero. -/
def buffered (text : List UInt8) : List UInt8 := (text.take tsCols).takeWhile (· ≠ 0)

def printV (s : TextScreen) (row col : UInt8) (pad : Bool) (text : Option (List UInt8)) :
    TextScreen :=
  match text with
  | none => s
  | some text =>
    let (s, c) := s.putText row col (buffered text)
    if pad then s.padRow row c else s

def print (s : TextScreen) (row col : UInt8) (text : Option (List UInt8)) : TextScreen :=
  s.printV row col false text

def printLine (s : TextScreen) (row col : UInt8) (text : Option (List UInt8)) : TextScreen :=
  s.printV row col true text

def bar (s : TextScreen) (row col width : UInt8) (permille : UInt16) : TextScreen :=
  let permille := if permille > 1000 then 1000 else permille
  let filled : UInt16 := ((width.toUInt32 * permille.toUInt32 + 500) / 1000).toUInt16
  (List.range width.toNat).foldl
    (fun s i => s.putChar row (col + UInt8.ofNat i) (if i < filled.toNat then 0x23 else 0x2E)) s

def clearRow (s : TextScreen) (row : UInt8) : TextScreen :=
  (columnsFrom 0).foldl (fun s c => s.putChar row c blank) s

/-- The inner loop of `rjs_ts_flush`: the cells of one row whose bits are set. -/
def flushRow {σ : Type} (row : Vector Cell tsCols) (r : UInt8) (cb : Option (DrawCb σ))
    (bits : UInt32) (drawn : UInt16) (user : σ) : UInt16 × σ :=
  if _h : bits ≠ 0 then
    let c := BitScan.ctz bits
    let user := match cb with
      | some cb => cb r (UInt8.ofNat c) (row[c]?.getD default) user
      | none => user
    flushRow row r cb (bits &&& (bits - 1)) (drawn + 1) user
  else (drawn, user)
termination_by bits.toNat
decreasing_by exact BitScan.land_pred_lt _h

/-- The cells of a row. -/
def row (s : TextScreen) (r : Fin tsRows) : Vector Cell tsCols := s.cells[r]

/-- The dirty bits of a row. -/
def bits (s : TextScreen) (r : Fin tsRows) : UInt32 := s.dirty[r]

/-- The dirty bits of a row cleared. -/
def clearBits (s : TextScreen) (r : Fin tsRows) : TextScreen :=
  { s with dirty := s.dirty.set r 0 }

/-- `rjs_ts_flush`: the cells drawn, what the callback made of its state, and the screen. -/
def flush {σ : Type} (s : TextScreen) (cb : Option (DrawCb σ)) (user : σ) :
    UInt16 × σ × TextScreen :=
  (List.finRange tsRows).foldl
    (fun (drawn, user, s) (r : Fin tsRows) =>
      let (drawn, user) := flushRow (s.row r) (UInt8.ofNat r) cb (s.bits r) drawn user
      (drawn, user, s.clearBits r))
    (0, user, s)

def dirtyCount (s : TextScreen) : UInt16 :=
  (List.finRange tsRows).foldl
    (fun n (r : Fin tsRows) => n + UInt16.ofNat (BitScan.popcount (s.bits r))) 0

end TextScreen

/-! ## A screen and its panel -/

/-- A call of the screen's owner. -/
inductive ScreenOp where
  | setColors (fg bg : UInt16)
  | print (row col : UInt8) (text : Option (List UInt8))
  | printLine (row col : UInt8) (text : Option (List UInt8))
  | bar (row col width : UInt8) (permille : UInt16)
  | clearRow (row : UInt8)
  | markAllDirty
  | flush
deriving DecidableEq, Repr

/-- A place on the screen: row and column. -/
abbrev Pos := Fin tsRows × Fin tsCols

/-- What a panel shows at each place. -/
abbrev Panel := Pos → Cell

/-- A callback that draws on a panel. -/
def drawCell : DrawCb Panel := fun row col cell panel p =>
  if p.1.val = row.toNat ∧ p.2.val = col.toNat then cell else panel p

/-- A text screen and the panel it is flushed to. -/
structure Display where
  screen : TextScreen
  panel : Panel

namespace Display

/-- `rjs_ts_init`, whatever the panel shows. -/
def start (fg bg : UInt16) (panel : Panel) : Display := ⟨.init fg bg, panel⟩

def act (d : Display) : ScreenOp → Display
  | .setColors fg bg => { d with screen := d.screen.setColors fg bg }
  | .print row col text => { d with screen := d.screen.print row col text }
  | .printLine row col text => { d with screen := d.screen.printLine row col text }
  | .bar row col width permille => { d with screen := d.screen.bar row col width permille }
  | .clearRow row => { d with screen := d.screen.clearRow row }
  | .markAllDirty => { d with screen := d.screen.markAllDirty }
  | .flush =>
    let (_, panel, screen) := d.screen.flush (some drawCell) d.panel
    ⟨screen, panel⟩

def run (d : Display) (ops : List ScreenOp) : Display := ops.foldl act d

end Display

end Rjs

import RobotJointStack.Board.Display
import RobotJointStack.Lib.Raster

/-!
# Board.Panel

The other end of the bus: the ST7789, as far as the driver speaks to it. While it is selected, a byte
with DC low is a command, and one with DC high a parameter or half a pixel. `CASET` and `RASET` set
the window, `RAMWR` starts the pixels, high byte first; the commands of the start-up sequence set the
mode. The picture is to be seen in one mode only: awake and switched on, with 16 bits for a pixel, in
portrait orientation and with the inversion that these panels need.

Transfers go through here. What becomes of one that does not is the business of `Board.DisplayDma`.

* `feed_window`, `feed_pieces`: the window commands and the pixels of a call.
* `call_drawn`: what a call leaves on the panel, whatever state the panel was in.
* `init_shows`: the start-up sequence leaves a black panel that can be seen.
-/

namespace Rjs

def swreset : UInt8 := 0x01

def slpout : UInt8 := 0x11

def noron : UInt8 := 0x13

def invon : UInt8 := 0x21

def dispon : UInt8 := 0x29

def caset : UInt8 := 0x2A

def raset : UInt8 := 0x2B

def ramwr : UInt8 := 0x2C

def madctl : UInt8 := 0x36

def colmod : UInt8 := 0x3A

/-- What decides how the picture memory is shown. -/
structure PanelMode where
  asleep : Bool
  on : Bool
  partialMode : Bool
  inverted : Bool
  format : UInt8
  orientation : UInt8
deriving DecidableEq, Repr

structure St7789 where
  selected : Bool
  data : Bool
  command : UInt8
  params : List UInt8
  high : Option UInt8
  mode : PanelMode
  raster : Raster UInt16

namespace PanelMode

/-- The mode after a reset. -/
def reset : PanelMode := ⟨true, false, false, false, 0x66, 0⟩

/-- The mode in which the driver's pictures are to be seen. -/
def running : PanelMode := ⟨false, true, false, true, 0x55, 0⟩

def begin (m : PanelMode) (command : UInt8) : PanelMode :=
  if command = swreset then reset
  else if command = slpout then { m with asleep := false }
  else if command = noron then { m with partialMode := false }
  else if command = invon then { m with inverted := true }
  else if command = dispon then { m with on := true }
  else m

end PanelMode

namespace St7789

/-- Two bytes, the high one first. -/
def word (high low : UInt8) : UInt16 := UInt16.ofNat (256 * high.toNat + low.toNat)

def begin (p : St7789) (command : UInt8) : St7789 :=
  { p with command := command
           params := []
           high := none
           mode := p.mode.begin command
           raster := if command = ramwr then p.raster.rewind else p.raster }

def setWindow (p : St7789) (v : Window) : St7789 := { p with raster := { p.raster with window := v } }

def parameter (p : St7789) (b : UInt8) : St7789 :=
  let p := { p with params := p.params ++ [b] }
  match p.params with
  | [a] =>
    if p.command = colmod then { p with mode := { p.mode with format := a } }
    else if p.command = madctl then { p with mode := { p.mode with orientation := a } }
    else p
  | [a, b, c, d] =>
    if p.command = caset then
      p.setWindow { p.raster.window with left := (word a b).toNat, right := (word c d).toNat }
    else if p.command = raset then
      p.setWindow { p.raster.window with top := (word a b).toNat, bottom := (word c d).toNat }
    else p
  | _ => p

def pixelByte (p : St7789) (b : UInt8) : St7789 :=
  match p.high with
  | none => { p with high := some b }
  | some a => { p with high := none, raster := p.raster.put (word a b) }

def byte (p : St7789) (b : UInt8) : St7789 :=
  if p.data then if p.command = ramwr then p.pixelByte b else p.parameter b else p.begin b

def act (p : St7789) : BusEvent → St7789
  | .cs low => { p with selected := low }
  | .dc data => { p with data := data }
  | .blocking bytes | .dma bytes => if p.selected then bytes.foldl byte p else p

def feed (p : St7789) (events : List BusEvent) : St7789 := events.foldl act p

theorem feed_append (p : St7789) (events events' : List BusEvent) :
    p.feed (events ++ events') = (p.feed events).feed events' := List.foldl_append

theorem word_bytes (px : UInt16) : word (px >>> 8).toUInt8 px.toUInt8 = px := by
  obtain ⟨hhigh, hlow⟩ : (px >>> 8).toUInt8 = UInt8.ofNat (px.toNat / 256) ∧
      px.toUInt8 = UInt8.ofNat (px.toNat % 256) := by
    simpa [bigEndian] using bytes_eq_bigEndian px
  have hpx := px.toNat_lt
  rw [word, hhigh, hlow, UInt8.toNat_ofNat_of_lt' (by show _ < 256; omega),
    UInt8.toNat_ofNat_of_lt' (by show _ < 256; omega), Nat.div_add_mod]
  exact UInt16.ofNat_toNat

/-- The panel after the window commands. -/
theorem feed_window (p : St7789) (x y w h : UInt16) :
    p.feed (windowEvents x y w h) =
      { selected := false
        data := false
        command := ramwr
        params := []
        high := none
        mode := p.mode
        raster := Raster.rewind { p.raster with
          window := ⟨x.toNat, (x + w - 1).toNat, y.toNat, (y + h - 1).toNat⟩ } } := by
  have hword (px : UInt16) : px.toNat = (word (px >>> 8).toUInt8 px.toUInt8).toNat := by
    rw [word_bytes]
  rw [hword x, hword (x + w - 1), hword y, hword (y + h - 1)]
  rfl

/-- The bytes of pixels go into the window. -/
theorem foldl_byte_pixels {p : St7789} (hdata : p.data = true) (hcommand : p.command = ramwr)
    (hhigh : p.high = none) (pixels : List UInt16) :
    (pixelBytes pixels).foldl byte p = { p with raster := pixels.foldl Raster.put p.raster } := by
  induction pixels generalizing p with
  | nil => rfl
  | cons px pixels ih =>
    have hpixel : (bigEndian px).foldl byte p = { p with raster := p.raster.put px } := by
      conv_rhs => rw [← word_bytes px]
      rw [← bytes_eq_bigEndian]
      simp [byte, pixelByte, hdata, hcommand, hhigh]
    rw [pixelBytes, List.flatMap_cons, List.foldl_append, hpixel]
    exact ih hdata hcommand hhigh

theorem feed_pieces {p : St7789} (hselected : p.selected = true) (hdata : p.data = true)
    (hcommand : p.command = ramwr) (hhigh : p.high = none) (pieces : List (List UInt16)) :
    p.feed (pieces.map pieceEvent) =
      { p with raster := pieces.flatten.foldl Raster.put p.raster } := by
  induction pieces generalizing p with
  | nil => rfl
  | cons piece pieces ih =>
    have hpiece : p.act (pieceEvent piece) = { p with raster := piece.foldl Raster.put p.raster } := by
      rw [← foldl_byte_pixels hdata hcommand hhigh]
      exact if_pos hselected
    rw [List.map_cons, feed, List.foldl_cons, hpiece, List.flatten_cons, List.foldl_append]
    exact ih hselected hdata hcommand hhigh

section Calls

variable {x y w h : UInt16}

/-- A rectangle of pixels over a picture. -/
def overlay (x y w h : UInt16) (pixels : Pixels) (ram : Nat → Nat → UInt16) : Nat → Nat → UInt16 :=
  fun col row =>
    if (x.toNat ≤ col ∧ col < x.toNat + w.toNat) ∧ y.toNat ≤ row ∧ row < y.toNat + h.toNat then
      pixels ((row - y.toNat) * w.toNat + (col - x.toNat))
    else ram col row

/-- `p'` is `p` with a rectangle drawn. -/
structure Drew (x y w h : UInt16) (pixels : Pixels) (p p' : St7789) : Prop where
  mode : p'.mode = p.mode
  ram : p'.raster.ram = overlay x y w h pixels p.raster.ram

theorem toNat_last {a b : UInt16} (hb : 1 ≤ b.toNat) (hfit : a.toNat + b.toNat ≤ 320) :
    (a + b - 1).toNat = a.toNat + b.toNat - 1 := by
  have hsum : (a + b).toNat = a.toNat + b.toNat := by
    rw [UInt16.toNat_add]
    exact Nat.mod_eq_of_lt (by omega)
  have hone : (1 : UInt16).toNat = 1 := rfl
  rw [UInt16.toNat_sub_of_le _ _ (UInt16.le_iff_toNat_le.mpr (by omega)), hsum, hone]

/-- A rectangle on the bus is a rectangle on the panel. -/
theorem drew_rectangle (hin : Inside x y w h) (p : St7789) (pixels : Pixels) :
    Drew x y w h pixels p
      (p.feed (rectangleEvents x y w h (firstPixels (w.toNat * h.toNat) pixels))) := by
  have hright := toNat_last hin.width (Nat.le_trans hin.right (by decide))
  have hbottom := toNat_last hin.height hin.bottom
  have hw := hin.width
  have hh := hin.height
  let v : Window := ⟨x.toNat, (x + w - 1).toNat, y.toNat, (y + h - 1).toNat⟩
  have hwidth : v.width = w.toNat := by simp only [v, Window.width, hright]; omega
  have hheight : v.height = h.toNat := by simp only [v, Window.height, hbottom]; omega
  have hflat : (pixelPieces (firstPixels (w.toNat * h.toNat) pixels)).flatten =
      firstPixels (w.toNat * h.toNat) pixels := Chunks.flatten_pieces ..
  rw [rectangleEvents, feed_append, feed_append, feed_append, feed_window]
  refine ⟨?_, funext fun col => funext fun row => ?_⟩
  · show (feed (feed _ _) [.cs false]).mode = _
    rw [feed_pieces rfl rfl rfl rfl]
    rfl
  · show (feed (feed _ _) [.cs false]).raster.ram col row = _
    rw [feed_pieces rfl rfl rfl rfl, hflat]
    have hfill := Raster.ram_fill (show v.left ≤ v.right by simp only [v]; omega)
      (show v.top ≤ v.bottom by simp only [v]; omega)
      (Raster.written_rewind { p.raster with window := v } pixels) col row
    rw [hwidth, hheight] at hfill
    refine hfill.trans ?_
    have hcontains : v.Contains col row ↔ (x.toNat ≤ col ∧ col < x.toNat + w.toNat) ∧
        y.toNat ≤ row ∧ row < y.toNat + h.toNat := by
      simp only [Window.Contains, v]; omega
    refine if_congr hcontains ?_ rfl
    rw [Window.index, hwidth]

/-- **A call draws its rectangle.** Whatever the panel was doing and whatever `s_chunk` held: a blit
inside the panel leaves its pixels in the rectangle, row by row, a fill its colour, and both leave
the mode and the rest of the picture alone; and what is not inside the panel, or comes before the
panel is ready, leaves all of it alone. -/
theorem call_drawn (p : St7789) (chunk : Vector UInt8 chunkBytes) (ready : Bool)
    (x y w h : UInt16) (pixels : Pixels) (color : UInt16) :
    let blit := busTrace chunk.toList (boardDisplayBlit ready x y w h pixels)
    let fill := busTrace chunk.toList (boardDisplayFill ready x y w h color)
    (ready = true ∧ Inside x y w h →
      Drew x y w h pixels p (p.feed blit) ∧ Drew x y w h (fun _ => color) p (p.feed fill)) ∧
    (¬(ready = true ∧ Inside x y w h) → p.feed blit = p ∧ p.feed fill = p) := by
  intro blit fill
  refine ⟨?_, fun hno => ?_⟩
  · rintro ⟨rfl, hin⟩
    simp only [blit, fill, busTrace_blit hin pixels Vector.length_toList,
      busTrace_fill hin color Vector.length_toList]
    exact ⟨drew_rectangle hin p pixels, drew_rectangle hin p fun _ => color⟩
  · have hdraw : ¬drawable ready x y w h = true := mt drawable_iff.mp hno
    simp only [blit, fill, boardDisplayBlit, boardDisplayFill, if_neg hdraw]
    exact ⟨rfl, rfl⟩

end Calls

/-- What is to be seen at a place. -/
def picture (p : St7789) (col row : Nat) : Option UInt16 :=
  if p.mode = .running then some (p.raster.ram col row) else none

end St7789

/-- What `board_display_init` tells the panel, where the HAL has set up its pins, SPI and DMA. -/
def boardDisplayInit : List DisplayOp :=
  [.cs false, .dc true] ++ DisplayOp.writeCmd swreset ++ DisplayOp.writeCmd slpout ++
    DisplayOp.writeCmd colmod ++ DisplayOp.writeData [0x55] ++
    DisplayOp.writeCmd madctl ++ DisplayOp.writeData [0x00] ++
    DisplayOp.writeCmd invon ++ DisplayOp.writeCmd noron ++ DisplayOp.writeCmd dispon ++
    boardDisplayFill true 0 0 240 320 0x0000

namespace St7789

/-- After the start-up sequence the panel is black, and can be seen. -/
theorem init_shows (p : St7789) {chunk : List UInt8} (hchunk : chunk.length = chunkBytes) :
    (p.feed (busTrace chunk boardDisplayInit)).mode = .running ∧
      ∀ col < 240, ∀ row < 320, (p.feed (busTrace chunk boardDisplayInit)).raster.ram col row = 0 := by
  have hin : Inside 0 0 240 320 := ⟨by decide, by decide, by decide, by decide⟩
  let start : St7789 := p.feed (busTrace chunk ([.cs false, .dc true] ++ DisplayOp.writeCmd swreset ++
    DisplayOp.writeCmd slpout ++ DisplayOp.writeCmd colmod ++ DisplayOp.writeData [0x55] ++
    DisplayOp.writeCmd madctl ++ DisplayOp.writeData [0x00] ++ DisplayOp.writeCmd invon ++
    DisplayOp.writeCmd noron ++ DisplayOp.writeCmd dispon))
  have hsplit : p.feed (busTrace chunk boardDisplayInit) =
      start.feed (busTrace chunk (boardDisplayFill true 0 0 240 320 0)) := by
    rw [boardDisplayInit, busTrace_append, feed_append]
    rfl
  have hdrew := drew_rectangle hin start fun _ => 0
  rw [hsplit, busTrace_fill hin 0 hchunk]
  refine ⟨hdrew.mode, fun col hcol row hrow => ?_⟩
  rw [hdrew.ram, overlay, if_pos]
  exact ⟨⟨Nat.zero_le _, (Nat.zero_add _).symm ▸ hcol⟩, Nat.zero_le _, (Nat.zero_add _).symm ▸ hrow⟩

end St7789

end Rjs

import RobotJointStack.Lib.Chunks

/-!
# Board.Display

The ST7789 driver of `display_st7789.c`. Nothing that a call does depends on how its transfers end,
so a call is the list of its operations in order. `spi_write_dma` is one operation here, and is
opened in `Board.DisplayDma`.

* `busTrace`: what the operations put on the bus, given what `s_chunk` holds.
* `busTrace_blit`, `busTrace_fill`: the window and then the pixels, in pieces.
* `drawing_streams`: so both calls stream exactly their rectangle.
-/

namespace Rjs

/-- `DISP_WIDTH`. -/
def dispWidth : UInt32 := 240

/-- `DISP_HEIGHT`. -/
def dispHeight : UInt32 := 320

/-- `CHUNK_PIXELS`. -/
def chunkPixels : UInt32 := 128

/-- The bytes of `s_chunk`. -/
def chunkBytes : Nat := 256

/-- What a pixel pointer reads at each index. -/
abbrev Pixels := Nat → UInt16

/-- An operation of the driver. -/
inductive DisplayOp where
  | cs (low : Bool)
  | dc (data : Bool)
  | writeBlocking (data : List UInt8)
  | store (i : Nat) (byte : UInt8)
  | writeDma (len : UInt16)
deriving DecidableEq, Repr

namespace DisplayOp

def writeCmd (cmd : UInt8) : List DisplayOp := [.dc false, .cs true, .writeBlocking [cmd], .cs false]

def writeData (data : List UInt8) : List DisplayOp :=
  [.dc true, .cs true, .writeBlocking data, .cs false]

/-- `CASET`, `RASET` and `RAMWR`. -/
def setWindow (x y w h : UInt16) : List DisplayOp :=
  let x1 := x + w - 1
  let y1 := y + h - 1
  writeCmd 0x2A ++ writeData [(x >>> 8).toUInt8, x.toUInt8, (x1 >>> 8).toUInt8, x1.toUInt8] ++
    writeCmd 0x2B ++ writeData [(y >>> 8).toUInt8, y.toUInt8, (y1 >>> 8).toUInt8, y1.toUInt8] ++
    writeCmd 0x2C

/-- A pixel in `s_chunk`. The ST7789 expects the high byte first. -/
def storePixel (i : Nat) (px : UInt16) : List DisplayOp :=
  [.store (2 * i) (px >>> 8).toUInt8, .store (2 * i + 1) px.toUInt8]

/-- The loop that fills `s_chunk`. -/
def storePixels (n : Nat) (src : Pixels) : List DisplayOp :=
  (List.range n).flatMap fun i => storePixel i (src i)

end DisplayOp

/-- `n` in the loops of `board_display_blit` and `board_display_fill`. -/
def chunkCount (remaining : UInt32) : UInt16 :=
  if remaining > chunkPixels then chunkPixels.toUInt16 else remaining.toUInt16

theorem toNat_chunkCount (remaining : UInt32) :
    (chunkCount remaining).toNat = min 128 remaining.toNat := by
  have hchunk : chunkPixels.toNat = 128 := rfl
  rw [chunkCount]
  split
  · rename_i h
    rw [gt_iff_lt, UInt32.lt_iff_toNat_lt, hchunk] at h
    exact (Nat.min_eq_left (Nat.le_of_lt h)).symm
  · rename_i h
    rw [gt_iff_lt, UInt32.not_lt, UInt32.le_iff_toNat_le, hchunk] at h
    rw [Nat.min_eq_right h, UInt32.toNat_toUInt16]
    exact Nat.mod_eq_of_lt (Nat.lt_of_le_of_lt h (by decide))

theorem toNat_sub_chunkCount (remaining : UInt32) :
    (remaining - (chunkCount remaining).toUInt32).toNat =
      remaining.toNat - min 128 remaining.toNat := by
  have hle : (chunkCount remaining).toUInt32 ≤ remaining := by
    rw [UInt32.le_iff_toNat_le, UInt16.toNat_toUInt32, toNat_chunkCount]
    exact Nat.min_le_right _ _
  rw [UInt32.toNat_sub_of_le _ _ hle, UInt16.toNat_toUInt32, toNat_chunkCount]

theorem toNat_pos {remaining : UInt32} (h : remaining > 0) : 0 < remaining.toNat :=
  UInt32.lt_iff_toNat_lt.mp h

/-- The loop of `board_display_blit`. -/
def blitLoop (remaining : UInt32) (src : Pixels) : List DisplayOp :=
  if _h : remaining > 0 then
    let n := chunkCount remaining
    DisplayOp.storePixels n.toNat src ++
      .writeDma (n * 2) :: blitLoop (remaining - n.toUInt32) (fun i => src (n.toNat + i))
  else []
termination_by remaining.toNat
decreasing_by
  have hpos := toNat_pos _h
  rw [toNat_sub_chunkCount]
  omega

/-- The loop of `board_display_fill`. -/
def fillLoop (remaining : UInt32) : List DisplayOp :=
  if _h : remaining > 0 then
    let n := chunkCount remaining
    .writeDma (n * 2) :: fillLoop (remaining - n.toUInt32)
  else []
termination_by remaining.toNat
decreasing_by
  have hpos := toNat_pos _h
  rw [toNat_sub_chunkCount]
  omega

/-- The check of both calls that a rectangle is drawn. -/
def drawable (ready : Bool) (x y w h : UInt16) : Bool :=
  !(!ready || w == 0 || h == 0 || decide (x.toUInt32 + w.toUInt32 > dispWidth) ||
    decide (y.toUInt32 + h.toUInt32 > dispHeight))

def boardDisplayBlit (ready : Bool) (x y w h : UInt16) (pixels : Pixels) : List DisplayOp :=
  if drawable ready x y w h then
    DisplayOp.setWindow x y w h ++ [.dc true, .cs true] ++
      blitLoop (w.toUInt32 * h.toUInt32) pixels ++ [.cs false]
  else []

def boardDisplayFill (ready : Bool) (x y w h color : UInt16) : List DisplayOp :=
  if drawable ready x y w h then
    DisplayOp.storePixels chunkPixels.toNat (fun _ => color) ++ DisplayOp.setWindow x y w h ++
      [.dc true, .cs true] ++ fillLoop (w.toUInt32 * h.toUInt32) ++ [.cs false]
  else []

/-! ## The bus -/

/-- What a display sees of the driver. -/
inductive BusEvent where
  | cs (low : Bool)
  | dc (data : Bool)
  | blocking (data : List UInt8)
  | dma (data : List UInt8)
deriving DecidableEq, Repr

/-- What operations put on the bus. -/
def busTrace (chunk : List UInt8) : List DisplayOp → List BusEvent
  | [] => []
  | .cs low :: ops => .cs low :: busTrace chunk ops
  | .dc data :: ops => .dc data :: busTrace chunk ops
  | .writeBlocking data :: ops => .blocking data :: busTrace chunk ops
  | .store i byte :: ops => busTrace (chunk.set i byte) ops
  | .writeDma len :: ops => .dma (chunk.take len.toNat) :: busTrace chunk ops

/-- What operations leave in `s_chunk`. -/
def chunkAfter (chunk : List UInt8) : List DisplayOp → List UInt8
  | [] => chunk
  | .store i byte :: ops => chunkAfter (chunk.set i byte) ops
  | _ :: ops => chunkAfter chunk ops

/-- The buffers handed to `spi_write_dma`. -/
def transfers (events : List BusEvent) : List (List UInt8) :=
  events.filterMap fun
    | .dma data => some data
    | _ => none

theorem busTrace_append (chunk : List UInt8) (ops ops' : List DisplayOp) :
    busTrace chunk (ops ++ ops') = busTrace chunk ops ++ busTrace (chunkAfter chunk ops) ops' := by
  fun_induction busTrace chunk ops with
  | case1 => rfl
  | case5 _ _ _ _ ih => exact ih
  | case2 _ _ _ ih | case3 _ _ _ ih | case4 _ _ _ ih | case6 _ _ _ ih =>
    simp [busTrace, chunkAfter, ih]

theorem busTrace_stores (chunk : List UInt8) {ops : List DisplayOp}
    (h : ∀ op ∈ ops, ∃ i byte, op = .store i byte) : busTrace chunk ops = [] := by
  induction ops generalizing chunk with
  | nil => rfl
  | cons op ops ih =>
    obtain ⟨⟨i, byte, rfl⟩, hrest⟩ := List.forall_mem_cons.mp h
    exact ih (chunk.set i byte) hrest

theorem chunkAfter_append (chunk : List UInt8) (ops ops' : List DisplayOp) :
    chunkAfter chunk (ops ++ ops') = chunkAfter (chunkAfter chunk ops) ops' := by
  induction ops generalizing chunk with
  | nil => rfl
  | cons op ops ih => cases op <;> exact ih _

/-! ## The chunk buffer -/

/-- A pixel as the display takes it. -/
def bigEndian (px : UInt16) : List UInt8 :=
  [UInt8.ofNat (px.toNat / 256), UInt8.ofNat (px.toNat % 256)]

def pixelBytes (pixels : List UInt16) : List UInt8 := pixels.flatMap bigEndian

/-- The first `n` pixels of an array. -/
def firstPixels (n : Nat) (src : Pixels) : List UInt16 := (List.range n).map src

theorem length_pixelBytes (pixels : List UInt16) :
    (pixelBytes pixels).length = 2 * pixels.length := by
  rw [pixelBytes, List.length_flatMap]
  simp [bigEndian, Nat.mul_comm]

@[simp] theorem length_firstPixels (n : Nat) (src : Pixels) : (firstPixels n src).length = n := by
  simp [firstPixels]

theorem pixelBytes_firstPixels_add (n m : Nat) (src : Pixels) :
    pixelBytes (firstPixels (n + m) src) =
      pixelBytes (firstPixels n src) ++ pixelBytes (firstPixels m fun i => src (n + i)) := by
  simp [pixelBytes, firstPixels, List.range_add, List.flatMap_map]

theorem pixelBytes_firstPixels_succ (n : Nat) (src : Pixels) :
    pixelBytes (firstPixels (n + 1) src) = pixelBytes (firstPixels n src) ++ bigEndian (src n) := by
  simp [pixelBytes, firstPixels, List.range_succ]

theorem bytes_eq_bigEndian (px : UInt16) : [(px >>> 8).toUInt8, px.toUInt8] = bigEndian px := by
  have hhigh : (px >>> 8).toUInt8 = UInt8.ofNat (px.toNat / 256) := by
    rw [← UInt8.toNat_inj, UInt16.toNat_toUInt8, UInt16.toNat_shiftRight, UInt8.toNat_ofNat',
      Nat.shiftRight_eq_div_pow]
    rfl
  have hlow : px.toUInt8 = UInt8.ofNat (px.toNat % 256) := by
    rw [← UInt8.toNat_inj, UInt16.toNat_toUInt8, UInt8.toNat_ofNat', Nat.mod_mod]
  rw [hhigh, hlow, bigEndian]

theorem mem_storePixels {n : Nat} {src : Pixels} {op : DisplayOp}
    (h : op ∈ DisplayOp.storePixels n src) : ∃ i byte, i < 2 * n ∧ op = .store i byte := by
  simp only [DisplayOp.storePixels, DisplayOp.storePixel, List.mem_flatMap, List.mem_range,
    List.mem_cons, List.not_mem_nil, or_false] at h
  obtain ⟨i, hi, rfl | rfl⟩ := h
  · exact ⟨_, _, by omega, rfl⟩
  · exact ⟨_, _, by omega, rfl⟩

theorem busTrace_storePixels (chunk : List UInt8) (n : Nat) (src : Pixels) :
    busTrace chunk (DisplayOp.storePixels n src) = [] := by
  refine busTrace_stores chunk fun op hop => ?_
  obtain ⟨i, byte, -, rfl⟩ := mem_storePixels hop
  exact ⟨i, byte, rfl⟩

/-- The loop that fills `s_chunk` puts pixels before what is left of the old bytes. -/
theorem chunkAfter_storePixels {chunk : List UInt8} (src : Pixels) {n : Nat}
    (hn : 2 * n ≤ chunk.length) :
    chunkAfter chunk (DisplayOp.storePixels n src) =
      pixelBytes (firstPixels n src) ++ chunk.drop (2 * n) := by
  induction n with
  | zero => simp [DisplayOp.storePixels, chunkAfter, firstPixels, pixelBytes]
  | succ n ih =>
    have hlen : (pixelBytes (firstPixels n src)).length = 2 * n := by
      rw [length_pixelBytes, length_firstPixels]
    have htail : chunk.drop (2 * n) =
        chunk[2 * n] :: chunk[2 * n + 1] :: chunk.drop (2 * (n + 1)) := by
      rw [List.drop_eq_getElem_cons (by omega), List.drop_eq_getElem_cons (by omega)]
      rfl
    have hstep : DisplayOp.storePixels (n + 1) src =
        DisplayOp.storePixels n src ++ DisplayOp.storePixel n (src n) := by
      simp [DisplayOp.storePixels, List.range_succ]
    rw [hstep, chunkAfter_append, ih (by omega), htail, pixelBytes_firstPixels_succ,
      ← bytes_eq_bigEndian]
    simp [DisplayOp.storePixel, chunkAfter, hlen]

/-! ## The loops -/

open Chunks

/-- Pixels in pieces that `s_chunk` can hold. -/
def pixelPieces (pixels : List UInt16) : List (List UInt16) := pieces 128 (by decide) pixels

/-- A piece on the bus. -/
def pieceEvent (piece : List UInt16) : BusEvent := .dma (pixelBytes piece)

theorem chunkCount_le (remaining : UInt32) : (chunkCount remaining).toNat ≤ 128 := by
  rw [toNat_chunkCount]
  exact Nat.min_le_left _ _

theorem toNat_chunkCount_mul_two (remaining : UInt32) :
    (chunkCount remaining * 2).toNat = 2 * (chunkCount remaining).toNat := by
  have hle := chunkCount_le remaining
  have htwo : (2 : UInt16).toNat = 2 := rfl
  rw [UInt16.toNat_mul, htwo]
  omega

/-- A round of a loop takes off the first piece. -/
theorem pixelPieces_firstPixels {remaining : UInt32} (h : remaining > 0) (src : Pixels) :
    pixelPieces (firstPixels remaining.toNat src) =
      firstPixels (chunkCount remaining).toNat src ::
        pixelPieces (firstPixels (remaining - (chunkCount remaining).toUInt32).toNat
          fun i => src ((chunkCount remaining).toNat + i)) := by
  have hpos := toNat_pos h
  have hne : firstPixels remaining.toNat src ≠ [] := by
    rw [← List.length_pos_iff, length_firstPixels]
    exact hpos
  have htake : (firstPixels remaining.toNat src).take 128 =
      firstPixels (chunkCount remaining).toNat src := by
    rw [toNat_chunkCount, firstPixels, ← List.map_take, List.take_range]
    rfl
  have hdrop : (firstPixels remaining.toNat src).drop 128 =
      firstPixels (remaining - (chunkCount remaining).toUInt32).toNat
        fun i => src ((chunkCount remaining).toNat + i) := by
    rw [toNat_sub_chunkCount, toNat_chunkCount]
    apply List.ext_getElem
    · simp
      omega
    · intro i hi hi'
      simp only [firstPixels, List.length_map, List.length_range] at hi'
      simp only [firstPixels, List.getElem_drop, List.getElem_map, List.getElem_range]
      rw [Nat.min_eq_left (by omega)]
  rw [pixelPieces, pieces_of_ne_nil _ hne, htake, hdrop]
  rfl

theorem busTrace_blitLoop (remaining : UInt32) (src : Pixels) {chunk : List UInt8}
    (hchunk : chunk.length = chunkBytes) :
    busTrace chunk (blitLoop remaining src) =
      (pixelPieces (firstPixels remaining.toNat src)).map pieceEvent := by
  fun_induction blitLoop remaining src generalizing chunk with
  | case1 remaining src h n =>
    rename_i ih
    have hfit : 2 * n.toNat ≤ chunk.length := by
      rw [hchunk]
      exact Nat.mul_le_mul_left 2 (chunkCount_le remaining)
    have hlen : (pixelBytes (firstPixels n.toNat src)).length = 2 * n.toNat := by
      rw [length_pixelBytes, length_firstPixels]
    have hafter : (pixelBytes (firstPixels n.toNat src) ++ chunk.drop (2 * n.toNat)).length =
        chunkBytes := by
      rw [List.length_append, hlen, List.length_drop, Nat.add_sub_cancel' hfit, hchunk]
    rw [busTrace_append, busTrace_storePixels, chunkAfter_storePixels src hfit, List.nil_append,
      busTrace, toNat_chunkCount_mul_two, List.take_left' hlen, ih hafter,
      pixelPieces_firstPixels h, List.map_cons]
    rfl
  | case2 remaining src h =>
    have hzero : remaining.toNat = 0 :=
      Nat.eq_zero_of_not_pos fun hpos => h (UInt32.lt_iff_toNat_lt.mpr hpos)
    rw [hzero]
    simp [busTrace, firstPixels, pixelPieces]

/-- A chunk full of one colour serves every piece. -/
theorem busTrace_fillLoop (remaining : UInt32) (color : UInt16) :
    busTrace (pixelBytes (firstPixels 128 fun _ => color)) (fillLoop remaining) =
      (pixelPieces (firstPixels remaining.toNat fun _ => color)).map pieceEvent := by
  fun_induction fillLoop remaining with
  | case1 remaining h n ih =>
    have hlen : (pixelBytes (firstPixels n.toNat fun _ => color)).length = (n * 2).toNat := by
      rw [length_pixelBytes, length_firstPixels, toNat_chunkCount_mul_two]
    have htake : (pixelBytes (firstPixels 128 fun _ => color)).take (n * 2).toNat =
        pixelBytes (firstPixels n.toNat fun _ => color) := by
      rw [← Nat.add_sub_cancel' (chunkCount_le remaining), pixelBytes_firstPixels_add,
        List.take_left' hlen]
    rw [busTrace, htake, ih, pixelPieces_firstPixels h, List.map_cons]
    rfl
  | case2 remaining h =>
    have hzero : remaining.toNat = 0 :=
      Nat.eq_zero_of_not_pos fun hpos => h (UInt32.lt_iff_toNat_lt.mpr hpos)
    rw [hzero]
    simp [busTrace, firstPixels, pixelPieces]

/-! ## The calls -/

/-- A rectangle with pixels, inside the panel. -/
structure Inside (x y w h : UInt16) : Prop where
  width : 1 ≤ w.toNat
  height : 1 ≤ h.toNat
  right : x.toNat + w.toNat ≤ 240
  bottom : y.toNat + h.toNat ≤ 320

theorem toNat_edge (a b : UInt16) : (a.toUInt32 + b.toUInt32).toNat = a.toNat + b.toNat := by
  have ha := a.toNat_lt
  have hb := b.toNat_lt
  rw [UInt32.toNat_add, UInt16.toNat_toUInt32, UInt16.toNat_toUInt32]
  exact Nat.mod_eq_of_lt (by omega)

theorem toNat_area (w h : UInt16) : (w.toUInt32 * h.toUInt32).toNat = w.toNat * h.toNat := by
  have hlt : w.toNat * h.toNat < 2 ^ 16 * 2 ^ 16 := Nat.mul_lt_mul'' w.toNat_lt h.toNat_lt
  rw [UInt32.toNat_mul, UInt16.toNat_toUInt32, UInt16.toNat_toUInt32]
  exact Nat.mod_eq_of_lt hlt

theorem drawable_iff {ready : Bool} {x y w h : UInt16} :
    drawable ready x y w h = true ↔ ready = true ∧ Inside x y w h := by
  have hne : ∀ a : UInt16, a ≠ 0 ↔ 1 ≤ a.toNat := fun a => by
    rw [ne_eq, ← UInt16.toNat_inj]
    exact Nat.pos_iff_ne_zero.symm
  have hwidth : dispWidth.toNat = 240 := rfl
  have hheight : dispHeight.toNat = 320 := rfl
  simp only [drawable, Bool.not_eq_true', Bool.or_eq_false_iff, Bool.not_eq_false',
    beq_eq_false_iff_ne, decide_eq_false_iff_not, gt_iff_lt, UInt32.not_lt,
    UInt32.le_iff_toNat_le, toNat_edge, hwidth, hheight, hne]
  constructor
  · rintro ⟨⟨⟨⟨hready, hw⟩, hh⟩, hx⟩, hy⟩
    exact ⟨hready, hw, hh, hx, hy⟩
  · rintro ⟨hready, hw, hh, hx, hy⟩
    exact ⟨⟨⟨⟨hready, hw⟩, hh⟩, hx⟩, hy⟩

/-- The window commands on the bus. -/
def windowEvents (x y w h : UInt16) : List BusEvent := busTrace [] (DisplayOp.setWindow x y w h)

/-- A rectangle of pixels on the bus. -/
def rectangleEvents (x y w h : UInt16) (pixels : List UInt16) : List BusEvent :=
  windowEvents x y w h ++ [.dc true, .cs true] ++ (pixelPieces pixels).map pieceEvent ++ [.cs false]

section Calls

variable {x y w h : UInt16}

/-- Between the window and the end of a call is only its loop. -/
theorem busTrace_rectangle {chunk : List UInt8} {loop : List DisplayOp} {pixels : List UInt16}
    (hloop : busTrace chunk loop = (pixelPieces pixels).map pieceEvent) :
    busTrace chunk (DisplayOp.setWindow x y w h ++ [.dc true, .cs true] ++ loop ++ [.cs false]) =
      rectangleEvents x y w h pixels := by
  have hopen : chunkAfter chunk (DisplayOp.setWindow x y w h ++ [.dc true, .cs true]) = chunk := rfl
  rw [busTrace_append, busTrace_append, hopen, hloop, rectangleEvents, busTrace_append]
  rfl

theorem busTrace_blit (hin : Inside x y w h) (pixels : Pixels) {chunk : List UInt8}
    (hchunk : chunk.length = chunkBytes) :
    busTrace chunk (boardDisplayBlit true x y w h pixels) =
      rectangleEvents x y w h (firstPixels (w.toNat * h.toNat) pixels) := by
  rw [boardDisplayBlit, if_pos (drawable_iff.mpr ⟨rfl, hin⟩)]
  refine busTrace_rectangle ?_
  rw [busTrace_blitLoop _ _ hchunk, toNat_area]

theorem busTrace_fill (hin : Inside x y w h) (color : UInt16) {chunk : List UInt8}
    (hchunk : chunk.length = chunkBytes) :
    busTrace chunk (boardDisplayFill true x y w h color) =
      rectangleEvents x y w h (firstPixels (w.toNat * h.toNat) fun _ => color) := by
  have hfull : chunkAfter chunk (DisplayOp.storePixels chunkPixels.toNat fun _ => color) =
      pixelBytes (firstPixels 128 fun _ => color) := by
    rw [chunkAfter_storePixels _ (by rw [hchunk]; decide),
      List.drop_of_length_le (by rw [hchunk]; decide), List.append_nil]
    rfl
  rw [boardDisplayFill, if_pos (drawable_iff.mpr ⟨rfl, hin⟩), List.append_assoc, List.append_assoc,
    List.append_assoc, busTrace_append, busTrace_storePixels, hfull, List.nil_append,
    ← List.append_assoc, ← List.append_assoc]
  refine busTrace_rectangle ?_
  rw [busTrace_fillLoop, toNat_area]

theorem not_drawn (hout : ¬Inside x y w h) (ready : Bool) (pixels : Pixels) (color : UInt16) :
    boardDisplayBlit ready x y w h pixels = [] ∧ boardDisplayFill ready x y w h color = [] := by
  have hdraw : ¬drawable ready x y w h = true := fun h => hout (drawable_iff.mp h).2
  exact ⟨if_neg hdraw, if_neg hdraw⟩

theorem transfers_rectangle (pixels : List UInt16) :
    transfers (rectangleEvents x y w h pixels) = (pixelPieces pixels).map pixelBytes := by
  have hpieces : transfers ((pixelPieces pixels).map pieceEvent) =
      (pixelPieces pixels).map pixelBytes := by
    rw [transfers, List.filterMap_map, ← List.filterMap_eq_map]
    rfl
  have happend : ∀ a b, transfers (a ++ b) = transfers a ++ transfers b :=
    fun _ _ => List.filterMap_append
  have hwindow : transfers (windowEvents x y w h) = [] := rfl
  rw [rectangleEvents, happend, happend, happend, hpieces, hwindow]
  exact List.append_nil _

theorem flatten_pixelPieces (pixels : List UInt16) :
    ((pixelPieces pixels).map pixelBytes).flatten = pixelBytes pixels := by
  have hcut : (pixelPieces pixels).flatMap id = pixels := by
    rw [List.flatMap_id, pixelPieces, flatten_pieces]
  calc ((pixelPieces pixels).map pixelBytes).flatten
      = (pixelPieces pixels).flatMap pixelBytes := rfl
    _ = ((pixelPieces pixels).flatMap id).flatMap bigEndian := List.flatMap_assoc.symm
    _ = pixelBytes pixels := by rw [hcut]; rfl

/-- Every transfer of a rectangle carries 1 to 128 pixels. -/
theorem length_mem_transfers {pixels : List UInt16} {data : List UInt8}
    (h : data ∈ transfers (rectangleEvents x y w h pixels)) :
    ∃ n, 1 ≤ n ∧ n ≤ 128 ∧ data.length = 2 * n := by
  rw [transfers_rectangle, List.mem_map] at h
  obtain ⟨piece, hpiece, rfl⟩ := h
  obtain ⟨hpos, hle⟩ := length_mem_pieces _ hpiece
  exact ⟨piece.length, hpos, hle, length_pixelBytes piece⟩

theorem length_transfers (pixels : List UInt16) :
    (transfers (rectangleEvents x y w h pixels)).length = (pixels.length + 127) / 128 := by
  rw [transfers_rectangle, List.length_map, pixelPieces, length_pieces]
  rfl

/-- The transfers of a blit: together the pixels of the rectangle in order, each 1 to 128 of them. -/
structure Streams (w h : UInt16) (pixels : Pixels) (events : List BusEvent) : Prop where
  bytes : (transfers events).flatten = pixelBytes (firstPixels (w.toNat * h.toNat) pixels)
  pieces : ∀ data ∈ transfers events, ∃ n, 1 ≤ n ∧ n ≤ 128 ∧ data.length = 2 * n
  rounds : (transfers events).length = (w.toNat * h.toNat + 127) / 128

theorem streams_blit (hin : Inside x y w h) (pixels : Pixels) {chunk : List UInt8}
    (hchunk : chunk.length = chunkBytes) :
    Streams w h pixels (busTrace chunk (boardDisplayBlit true x y w h pixels)) := by
  rw [busTrace_blit hin pixels hchunk]
  refine ⟨?_, fun data hdata => length_mem_transfers hdata, ?_⟩
  · rw [transfers_rectangle, flatten_pixelPieces]
  · rw [length_transfers, length_firstPixels]

theorem fill_eq_blit (hin : Inside x y w h) {color : UInt16} {copies : Pixels}
    (hcopies : ∀ i < w.toNat * h.toNat, copies i = color) {chunk chunk' : List UInt8}
    (hchunk : chunk.length = chunkBytes) (hchunk' : chunk'.length = chunkBytes) :
    busTrace chunk (boardDisplayFill true x y w h color) =
      busTrace chunk' (boardDisplayBlit true x y w h copies) := by
  have hsame : firstPixels (w.toNat * h.toNat) copies =
      firstPixels (w.toNat * h.toNat) fun _ => color :=
    List.map_congr_left fun i hi => hcopies i (List.mem_range.mp hi)
  rw [busTrace_fill hin color hchunk, busTrace_blit hin copies hchunk', hsame]

/-- **Drawing streams exactly the rectangle.** Whatever `s_chunk` held before, a blit inside the
panel sends its pixels and nothing else, a fill is a blit of copies of its colour, and a rectangle
that is empty or not inside the panel leaves the bus alone. -/
theorem drawing_streams (chunk chunk' : Vector UInt8 chunkBytes) (x y w h : UInt16) :
    (Inside x y w h →
      (∀ pixels, Streams w h pixels
        (busTrace chunk.toList (boardDisplayBlit true x y w h pixels))) ∧
      ∀ color copies, (∀ i < w.toNat * h.toNat, copies i = color) →
        busTrace chunk.toList (boardDisplayFill true x y w h color) =
          busTrace chunk'.toList (boardDisplayBlit true x y w h copies)) ∧
    (¬Inside x y w h → ∀ ready pixels color,
      busTrace chunk.toList (boardDisplayBlit ready x y w h pixels) = [] ∧
        busTrace chunk.toList (boardDisplayFill ready x y w h color) = []) := by
  have hlen : ∀ c : Vector UInt8 chunkBytes, c.toList.length = chunkBytes :=
    fun c => Vector.length_toList
  constructor
  · intro hin
    refine ⟨fun pixels => streams_blit hin pixels (hlen chunk), ?_⟩
    intro color copies hcopies
    exact fill_eq_blit hin hcopies (hlen chunk) (hlen chunk')
  · intro hout ready pixels color
    obtain ⟨hblit, hfill⟩ := not_drawn hout ready pixels color
    rw [hblit, hfill]
    exact ⟨rfl, rfl⟩

/-- A picture for the whole panel, with a colour for each column. -/
def stripes : Pixels := fun i => UInt16.ofNat (i % 240)

/-- The whole panel, 76800 pixels in 600 transfers. -/
theorem drawing_streams_panel :
    Streams 240 320 stripes (busTrace (Vector.replicate chunkBytes 0).toList
      (boardDisplayBlit true 0 0 240 320 stripes)) :=
  ((drawing_streams (Vector.replicate chunkBytes 0) (Vector.replicate chunkBytes 0) 0 0 240 320).1
    ⟨by decide, by decide, by decide, by decide⟩).1 stripes

end Calls

end Rjs

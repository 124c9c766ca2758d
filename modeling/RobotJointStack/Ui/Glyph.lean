import Mathlib.Data.Fintype.Basic
import Mathlib.Data.Nat.Bitwise
import RobotJointStack.Ui.TextScreen

/-!
# Ui.Glyph

The pixels of a character: the font of `font8x16.c` and `rjs_ts_render_cell`. The font is generated,
and one of its characters got lost on the way: the line of `_` lies below its cell, so `_` is blank.

* `glyph_injective`: otherwise no two characters have one glyph.
* `renderCell_eq_iff`: when two cells that stand out look alike.
* `renderCell_look`: what can be told of any cell.
-/

namespace Rjs

/-- `rjs_font8x16`: the rows of the characters 32 to 126, from top to bottom. -/
def font8x16 : List (List UInt8) := [
  [0x00, 0x00, 0x00, 0x00, 0x00, 0x00, 0x00, 0x00, 0x00, 0x00, 0x00, 0x00, 0x00, 0x00, 0x00, 0x00],
  [0x00, 0x00, 0x08, 0x08, 0x08, 0x08, 0x08, 0x08, 0x08, 0x00, 0x00, 0x08, 0x08, 0x00, 0x00, 0x00],
  [0x00, 0x00, 0x12, 0x12, 0x12, 0x12, 0x00, 0x00, 0x00, 0x00, 0x00, 0x00, 0x00, 0x00, 0x00, 0x00],
  [0x00, 0x00, 0x09, 0x1B, 0x12, 0x7F, 0x12, 0x36, 0x24, 0xFF, 0x24, 0x2C, 0x48, 0x00, 0x00, 0x00],
  [0x00, 0x08, 0x08, 0x3E, 0x69, 0x48, 0x48, 0x38, 0x0E, 0x09, 0x09, 0x49, 0x3E, 0x08, 0x08, 0x00],
  [0x00, 0x00, 0x70, 0x88, 0x88, 0x88, 0x73, 0x1C, 0x67, 0x08, 0x08, 0x08, 0x07, 0x00, 0x00, 0x00],
  [0x00, 0x00, 0x1E, 0x20, 0x20, 0x30, 0x38, 0x69, 0x45, 0x47, 0x42, 0x22, 0x1D, 0x00, 0x00, 0x00],
  [0x00, 0x00, 0x08, 0x08, 0x08, 0x08, 0x00, 0x00, 0x00, 0x00, 0x00, 0x00, 0x00, 0x00, 0x00, 0x00],
  [0x00, 0x00, 0x04, 0x08, 0x08, 0x10, 0x10, 0x10, 0x10, 0x10, 0x10, 0x10, 0x08, 0x08, 0x04, 0x00],
  [0x00, 0x00, 0x20, 0x10, 0x10, 0x08, 0x08, 0x08, 0x08, 0x08, 0x08, 0x08, 0x10, 0x10, 0x20, 0x00],
  [0x00, 0x00, 0x08, 0x49, 0x3E, 0x1C, 0x6B, 0x08, 0x00, 0x00, 0x00, 0x00, 0x00, 0x00, 0x00, 0x00],
  [0x00, 0x00, 0x00, 0x00, 0x00, 0x08, 0x08, 0x08, 0x7F, 0x08, 0x08, 0x08, 0x00, 0x00, 0x00, 0x00],
  [0x00, 0x00, 0x00, 0x00, 0x00, 0x00, 0x00, 0x00, 0x00, 0x00, 0x00, 0x0C, 0x0C, 0x08, 0x10, 0x00],
  [0x00, 0x00, 0x00, 0x00, 0x00, 0x00, 0x00, 0x00, 0x1E, 0x00, 0x00, 0x00, 0x00, 0x00, 0x00, 0x00],
  [0x00, 0x00, 0x00, 0x00, 0x00, 0x00, 0x00, 0x00, 0x00, 0x00, 0x00, 0x0C, 0x0C, 0x00, 0x00, 0x00],
  [0x00, 0x00, 0x01, 0x02, 0x02, 0x04, 0x04, 0x08, 0x08, 0x10, 0x10, 0x20, 0x20, 0x40, 0x00, 0x00],
  [0x00, 0x00, 0x1C, 0x22, 0x41, 0x41, 0x4D, 0x4D, 0x41, 0x41, 0x41, 0x22, 0x1C, 0x00, 0x00, 0x00],
  [0x00, 0x00, 0x18, 0x28, 0x08, 0x08, 0x08, 0x08, 0x08, 0x08, 0x08, 0x08, 0x3E, 0x00, 0x00, 0x00],
  [0x00, 0x00, 0x3C, 0x63, 0x41, 0x01, 0x01, 0x02, 0x04, 0x08, 0x10, 0x20, 0x7F, 0x00, 0x00, 0x00],
  [0x00, 0x00, 0x3C, 0x43, 0x01, 0x01, 0x03, 0x1C, 0x03, 0x01, 0x01, 0x43, 0x3E, 0x00, 0x00, 0x00],
  [0x00, 0x00, 0x06, 0x0E, 0x0A, 0x12, 0x32, 0x22, 0x42, 0x7F, 0x02, 0x02, 0x02, 0x00, 0x00, 0x00],
  [0x00, 0x00, 0x7E, 0x40, 0x40, 0x40, 0x7C, 0x42, 0x01, 0x01, 0x01, 0x42, 0x3C, 0x00, 0x00, 0x00],
  [0x00, 0x00, 0x1E, 0x31, 0x20, 0x40, 0x5E, 0x63, 0x41, 0x41, 0x41, 0x23, 0x1E, 0x00, 0x00, 0x00],
  [0x00, 0x00, 0x7F, 0x03, 0x02, 0x02, 0x04, 0x04, 0x08, 0x08, 0x10, 0x10, 0x20, 0x00, 0x00, 0x00],
  [0x00, 0x00, 0x3E, 0x63, 0x41, 0x41, 0x63, 0x1C, 0x63, 0x41, 0x41, 0x63, 0x3E, 0x00, 0x00, 0x00],
  [0x00, 0x00, 0x3C, 0x62, 0x41, 0x41, 0x41, 0x63, 0x3D, 0x01, 0x02, 0x46, 0x3C, 0x00, 0x00, 0x00],
  [0x00, 0x00, 0x00, 0x00, 0x00, 0x0C, 0x0C, 0x00, 0x00, 0x00, 0x00, 0x0C, 0x0C, 0x00, 0x00, 0x00],
  [0x00, 0x00, 0x00, 0x00, 0x00, 0x0C, 0x0C, 0x00, 0x00, 0x00, 0x00, 0x0C, 0x0C, 0x08, 0x10, 0x00],
  [0x00, 0x00, 0x00, 0x00, 0x00, 0x00, 0x07, 0x38, 0x60, 0x38, 0x07, 0x00, 0x00, 0x00, 0x00, 0x00],
  [0x00, 0x00, 0x00, 0x00, 0x00, 0x00, 0x7F, 0x00, 0x00, 0x7F, 0x00, 0x00, 0x00, 0x00, 0x00, 0x00],
  [0x00, 0x00, 0x00, 0x00, 0x00, 0x40, 0x38, 0x07, 0x01, 0x07, 0x38, 0x40, 0x00, 0x00, 0x00, 0x00],
  [0x00, 0x00, 0x1E, 0x21, 0x01, 0x01, 0x02, 0x0C, 0x08, 0x08, 0x00, 0x08, 0x08, 0x00, 0x00, 0x00],
  [0x00, 0x00, 0x00, 0x1E, 0x33, 0x21, 0x47, 0x49, 0x49, 0x49, 0x49, 0x47, 0x20, 0x30, 0x0E, 0x00],
  [0x00, 0x00, 0x08, 0x14, 0x14, 0x14, 0x14, 0x22, 0x22, 0x3E, 0x22, 0x41, 0x41, 0x00, 0x00, 0x00],
  [0x00, 0x00, 0x7E, 0x43, 0x41, 0x41, 0x43, 0x7E, 0x43, 0x41, 0x41, 0x43, 0x7E, 0x00, 0x00, 0x00],
  [0x00, 0x00, 0x1E, 0x21, 0x20, 0x40, 0x40, 0x40, 0x40, 0x40, 0x20, 0x21, 0x1E, 0x00, 0x00, 0x00],
  [0x00, 0x00, 0x7C, 0x46, 0x42, 0x41, 0x41, 0x41, 0x41, 0x41, 0x42, 0x46, 0x7C, 0x00, 0x00, 0x00],
  [0x00, 0x00, 0x7F, 0x40, 0x40, 0x40, 0x40, 0x7F, 0x40, 0x40, 0x40, 0x40, 0x7F, 0x00, 0x00, 0x00],
  [0x00, 0x00, 0x7F, 0x40, 0x40, 0x40, 0x40, 0x7F, 0x40, 0x40, 0x40, 0x40, 0x40, 0x00, 0x00, 0x00],
  [0x00, 0x00, 0x1E, 0x21, 0x20, 0x40, 0x40, 0x47, 0x41, 0x41, 0x21, 0x21, 0x1E, 0x00, 0x00, 0x00],
  [0x00, 0x00, 0x41, 0x41, 0x41, 0x41, 0x41, 0x7F, 0x41, 0x41, 0x41, 0x41, 0x41, 0x00, 0x00, 0x00],
  [0x00, 0x00, 0x3E, 0x08, 0x08, 0x08, 0x08, 0x08, 0x08, 0x08, 0x08, 0x08, 0x3E, 0x00, 0x00, 0x00],
  [0x00, 0x00, 0x1E, 0x02, 0x02, 0x02, 0x02, 0x02, 0x02, 0x02, 0x02, 0x46, 0x3C, 0x00, 0x00, 0x00],
  [0x00, 0x00, 0x41, 0x42, 0x44, 0x48, 0x50, 0x68, 0x48, 0x44, 0x42, 0x42, 0x41, 0x00, 0x00, 0x00],
  [0x00, 0x00, 0x40, 0x40, 0x40, 0x40, 0x40, 0x40, 0x40, 0x40, 0x40, 0x40, 0x7F, 0x00, 0x00, 0x00],
  [0x00, 0x00, 0x63, 0x63, 0x63, 0x55, 0x55, 0x55, 0x49, 0x41, 0x41, 0x41, 0x41, 0x00, 0x00, 0x00],
  [0x00, 0x00, 0x61, 0x61, 0x51, 0x51, 0x59, 0x49, 0x49, 0x45, 0x45, 0x43, 0x43, 0x00, 0x00, 0x00],
  [0x00, 0x00, 0x1C, 0x22, 0x41, 0x41, 0x41, 0x41, 0x41, 0x41, 0x41, 0x22, 0x1C, 0x00, 0x00, 0x00],
  [0x00, 0x00, 0x7C, 0x43, 0x41, 0x41, 0x41, 0x43, 0x7E, 0x40, 0x40, 0x40, 0x40, 0x00, 0x00, 0x00],
  [0x00, 0x00, 0x1C, 0x22, 0x41, 0x41, 0x41, 0x41, 0x41, 0x41, 0x41, 0x22, 0x1E, 0x06, 0x02, 0x00],
  [0x00, 0x00, 0x7E, 0x43, 0x41, 0x41, 0x43, 0x7C, 0x42, 0x41, 0x41, 0x41, 0x40, 0x00, 0x00, 0x00],
  [0x00, 0x00, 0x1E, 0x63, 0x40, 0x40, 0x60, 0x1C, 0x03, 0x01, 0x01, 0x63, 0x3E, 0x00, 0x00, 0x00],
  [0x00, 0x00, 0x7F, 0x08, 0x08, 0x08, 0x08, 0x08, 0x08, 0x08, 0x08, 0x08, 0x08, 0x00, 0x00, 0x00],
  [0x00, 0x00, 0x41, 0x41, 0x41, 0x41, 0x41, 0x41, 0x41, 0x41, 0x41, 0x63, 0x3E, 0x00, 0x00, 0x00],
  [0x00, 0x00, 0x41, 0x41, 0x22, 0x22, 0x22, 0x22, 0x14, 0x14, 0x14, 0x14, 0x08, 0x00, 0x00, 0x00],
  [0x00, 0x00, 0x80, 0x80, 0x80, 0x49, 0x55, 0x55, 0x55, 0x55, 0x55, 0x22, 0x22, 0x00, 0x00, 0x00],
  [0x00, 0x00, 0x41, 0x22, 0x22, 0x14, 0x14, 0x08, 0x14, 0x14, 0x22, 0x22, 0x41, 0x00, 0x00, 0x00],
  [0x00, 0x00, 0xC1, 0x41, 0x22, 0x32, 0x14, 0x08, 0x08, 0x08, 0x08, 0x08, 0x08, 0x00, 0x00, 0x00],
  [0x00, 0x00, 0x7F, 0x01, 0x02, 0x04, 0x04, 0x08, 0x10, 0x10, 0x20, 0x40, 0x7F, 0x00, 0x00, 0x00],
  [0x00, 0x00, 0x1C, 0x10, 0x10, 0x10, 0x10, 0x10, 0x10, 0x10, 0x10, 0x10, 0x10, 0x10, 0x1C, 0x00],
  [0x00, 0x00, 0x40, 0x20, 0x20, 0x10, 0x10, 0x08, 0x08, 0x04, 0x04, 0x02, 0x02, 0x01, 0x00, 0x00],
  [0x00, 0x00, 0x38, 0x08, 0x08, 0x08, 0x08, 0x08, 0x08, 0x08, 0x08, 0x08, 0x08, 0x08, 0x38, 0x00],
  [0x00, 0x00, 0x0C, 0x1E, 0x33, 0x61, 0x00, 0x00, 0x00, 0x00, 0x00, 0x00, 0x00, 0x00, 0x00, 0x00],
  [0x00, 0x00, 0x00, 0x00, 0x00, 0x00, 0x00, 0x00, 0x00, 0x00, 0x00, 0x00, 0x00, 0x00, 0x00, 0x00],
  [0x00, 0x30, 0x18, 0x0C, 0x00, 0x00, 0x00, 0x00, 0x00, 0x00, 0x00, 0x00, 0x00, 0x00, 0x00, 0x00],
  [0x00, 0x00, 0x00, 0x00, 0x00, 0x1E, 0x21, 0x01, 0x3F, 0x61, 0x41, 0x43, 0x3D, 0x00, 0x00, 0x00],
  [0x00, 0x00, 0x40, 0x40, 0x40, 0x5C, 0x62, 0x41, 0x41, 0x41, 0x41, 0x62, 0x5C, 0x00, 0x00, 0x00],
  [0x00, 0x00, 0x00, 0x00, 0x00, 0x1C, 0x22, 0x40, 0x40, 0x40, 0x40, 0x22, 0x1C, 0x00, 0x00, 0x00],
  [0x00, 0x00, 0x01, 0x01, 0x01, 0x1D, 0x23, 0x41, 0x41, 0x41, 0x41, 0x23, 0x1D, 0x00, 0x00, 0x00],
  [0x00, 0x00, 0x00, 0x00, 0x00, 0x1C, 0x22, 0x41, 0x41, 0x7F, 0x40, 0x21, 0x1E, 0x00, 0x00, 0x00],
  [0x00, 0x00, 0x07, 0x08, 0x08, 0x3F, 0x08, 0x08, 0x08, 0x08, 0x08, 0x08, 0x08, 0x00, 0x00, 0x00],
  [0x00, 0x00, 0x00, 0x00, 0x00, 0x1D, 0x23, 0x41, 0x41, 0x41, 0x41, 0x23, 0x1D, 0x01, 0x23, 0x1E],
  [0x00, 0x00, 0x40, 0x40, 0x40, 0x5E, 0x63, 0x41, 0x41, 0x41, 0x41, 0x41, 0x41, 0x00, 0x00, 0x00],
  [0x00, 0x00, 0x08, 0x08, 0x00, 0x38, 0x08, 0x08, 0x08, 0x08, 0x08, 0x08, 0x7F, 0x00, 0x00, 0x00],
  [0x00, 0x00, 0x08, 0x08, 0x00, 0x38, 0x08, 0x08, 0x08, 0x08, 0x08, 0x08, 0x08, 0x08, 0x08, 0x70],
  [0x00, 0x00, 0x40, 0x40, 0x40, 0x42, 0x4C, 0x50, 0x70, 0x48, 0x44, 0x42, 0x41, 0x00, 0x00, 0x00],
  [0x00, 0x00, 0xF0, 0x10, 0x10, 0x10, 0x10, 0x10, 0x10, 0x10, 0x10, 0x10, 0x0E, 0x00, 0x00, 0x00],
  [0x00, 0x00, 0x00, 0x00, 0x00, 0x7E, 0x49, 0x49, 0x49, 0x49, 0x49, 0x49, 0x49, 0x00, 0x00, 0x00],
  [0x00, 0x00, 0x00, 0x00, 0x00, 0x5E, 0x63, 0x41, 0x41, 0x41, 0x41, 0x41, 0x41, 0x00, 0x00, 0x00],
  [0x00, 0x00, 0x00, 0x00, 0x00, 0x1C, 0x22, 0x41, 0x41, 0x41, 0x41, 0x22, 0x1C, 0x00, 0x00, 0x00],
  [0x00, 0x00, 0x00, 0x00, 0x00, 0x5C, 0x62, 0x41, 0x41, 0x41, 0x41, 0x62, 0x5C, 0x40, 0x40, 0x40],
  [0x00, 0x00, 0x00, 0x00, 0x00, 0x1D, 0x23, 0x41, 0x41, 0x41, 0x41, 0x23, 0x1D, 0x01, 0x01, 0x01],
  [0x00, 0x00, 0x00, 0x00, 0x00, 0x17, 0x18, 0x10, 0x10, 0x10, 0x10, 0x10, 0x10, 0x00, 0x00, 0x00],
  [0x00, 0x00, 0x00, 0x00, 0x00, 0x3E, 0x41, 0x40, 0x78, 0x07, 0x01, 0x41, 0x3E, 0x00, 0x00, 0x00],
  [0x00, 0x00, 0x00, 0x10, 0x10, 0x7E, 0x10, 0x10, 0x10, 0x10, 0x10, 0x10, 0x0E, 0x00, 0x00, 0x00],
  [0x00, 0x00, 0x00, 0x00, 0x00, 0x41, 0x41, 0x41, 0x41, 0x41, 0x41, 0x63, 0x3D, 0x00, 0x00, 0x00],
  [0x00, 0x00, 0x00, 0x00, 0x00, 0x41, 0x22, 0x22, 0x22, 0x14, 0x14, 0x14, 0x08, 0x00, 0x00, 0x00],
  [0x00, 0x00, 0x00, 0x00, 0x00, 0x80, 0x80, 0x49, 0x49, 0x55, 0x55, 0x22, 0x22, 0x00, 0x00, 0x00],
  [0x00, 0x00, 0x00, 0x00, 0x00, 0x63, 0x22, 0x14, 0x08, 0x08, 0x14, 0x22, 0x63, 0x00, 0x00, 0x00],
  [0x00, 0x00, 0x00, 0x00, 0x00, 0x41, 0x22, 0x22, 0x22, 0x14, 0x14, 0x0C, 0x08, 0x08, 0x08, 0x30],
  [0x00, 0x00, 0x00, 0x00, 0x00, 0x7F, 0x01, 0x02, 0x04, 0x18, 0x20, 0x40, 0x7F, 0x00, 0x00, 0x00],
  [0x00, 0x00, 0x06, 0x08, 0x08, 0x08, 0x08, 0x08, 0x30, 0x08, 0x08, 0x08, 0x08, 0x08, 0x08, 0x06],
  [0x00, 0x00, 0x08, 0x08, 0x08, 0x08, 0x08, 0x08, 0x08, 0x08, 0x08, 0x08, 0x08, 0x08, 0x08, 0x08],
  [0x00, 0x00, 0x30, 0x08, 0x08, 0x08, 0x08, 0x08, 0x06, 0x08, 0x08, 0x08, 0x08, 0x08, 0x08, 0x30],
  [0x00, 0x00, 0x00, 0x00, 0x00, 0x00, 0x00, 0x38, 0x47, 0x00, 0x00, 0x00, 0x00, 0x00, 0x00, 0x00]]

def fontFirst : UInt8 := 32

def fontLast : UInt8 := 126

def fontWidth : Nat := 8

/-- The characters that the font has. -/
def Printable (ch : UInt8) : Prop := fontFirst ≤ ch ∧ ch ≤ fontLast

instance : DecidablePred Printable := fun _ => inferInstanceAs (Decidable (_ ∧ _))

/-- The rows of a printable character. -/
def glyph (ch : UInt8) : List UInt8 := font8x16[(ch - fontFirst).toNat]?.getD []

/-- Whether pixel `i` of a character is set. -/
def dot (ch : UInt8) (i : Nat) : Bool :=
  (glyph ch)[i / fontWidth]?.getD 0 &&& ((0x80 : UInt8) >>> UInt8.ofNat (i % fontWidth)) ≠ 0

/-- `rjs_ts_render_cell`: the pixels in `out`, a box for an unknown character. -/
def renderCell (cell : Cell) : Vector UInt16 128 :=
  if cell.ch < fontFirst ∨ cell.ch > fontLast then Vector.replicate 128 cell.fg
  else Vector.ofFn fun i => if dot cell.ch i then cell.fg else cell.bg

/-! ## The font -/

/-- The line of this character is missing. -/
def underscore : UInt8 := 0x5F

/-- The characters without a pixel. -/
def IsBlank (ch : UInt8) : Prop := ch = blank ∨ ch = underscore

instance : DecidablePred IsBlank := fun _ => inferInstanceAs (Decidable (_ ∨ _))

theorem font_shape : font8x16.length = 95 ∧ ∀ g ∈ font8x16, g.length = 16 ∧ g.head? = some 0 := by
  decide +kernel

theorem font_injective : ∀ i j : Fin 95, font8x16[i.val]? = font8x16[j.val]? →
    i = j ∨ (i = 0 ∨ i = 63) ∧ (j = 0 ∨ j = 63) := by
  decide +kernel

/-- The number of a printable character in the font. -/
theorem Printable.index {ch : UInt8} (h : Printable ch) :
    (ch - fontFirst).toNat = ch.toNat - 32 ∧ 32 ≤ ch.toNat ∧ ch.toNat < 127 := by
  obtain ⟨hfirst, hlast⟩ := h
  rw [UInt8.toNat_sub_of_le _ _ hfirst]
  rw [UInt8.le_iff_toNat_le] at hfirst hlast
  exact ⟨rfl, hfirst, Nat.lt_succ_of_le hlast⟩

theorem Printable.glyph_mem {ch : UInt8} (h : Printable ch) : glyph ch ∈ font8x16 := by
  obtain ⟨hindex, hlow, hhigh⟩ := h.index
  have hlt : (ch - fontFirst).toNat < font8x16.length := by rw [hindex, font_shape.1]; omega
  rw [glyph, List.getElem?_eq_getElem hlt]
  exact List.getElem_mem hlt

/-- No two characters have one glyph, except for the two blanks. -/
theorem glyph_injective {ch ch' : UInt8} (h : Printable ch) (h' : Printable ch')
    (he : glyph ch = glyph ch') : ch = ch' ∨ IsBlank ch ∧ IsBlank ch' := by
  obtain ⟨hi, hlow, hhigh⟩ := h.index
  obtain ⟨hj, hlow', hhigh'⟩ := h'.index
  let i : Fin 95 := ⟨ch.toNat - 32, by omega⟩
  let j : Fin 95 := ⟨ch'.toNat - 32, by omega⟩
  have hlt (k : Fin 95) : k.val < font8x16.length := by rw [font_shape.1]; exact k.isLt
  have hsame : font8x16[i.val]? = font8x16[j.val]? := by
    rw [glyph, glyph, hi, hj] at he
    rw [List.getElem?_eq_getElem (hlt i), List.getElem?_eq_getElem (hlt j)] at he ⊢
    exact congrArg some he
  have hback {k : Fin 95} {c : UInt8} (hk : k.val = c.toNat - 32) (hc : 32 ≤ c.toNat)
      (hb : k = 0 ∨ k = 63) : IsBlank c := by
    rcases hb with rfl | rfl
    · exact .inl (UInt8.toNat_inj.mp (show c.toNat = 32 by omega))
    · exact .inr (UInt8.toNat_inj.mp (show c.toNat = 95 by omega))
  rcases font_injective i j hsame with hij | ⟨hbi, hbj⟩
  · left
    have hval : ch.toNat - 32 = ch'.toNat - 32 := congrArg Fin.val hij
    exact UInt8.toNat_inj.mp (by omega)
  · exact .inr ⟨hback rfl hlow hbi, hback rfl hlow' hbj⟩

/-! ## What can be told apart -/

/-- The masks of a row, from the left, are its bits from the top. -/
theorem and_mask_ne_zero (bits : UInt8) {x : Nat} (hx : x < 8) :
    bits &&& ((0x80 : UInt8) >>> UInt8.ofNat x) ≠ 0 ↔ bits.toNat.testBit (7 - x) = true := by
  have hmask : ∀ x : Fin 8, ((0x80 : UInt8) >>> UInt8.ofNat x.val).toNat = 2 ^ (7 - x.val) := by
    decide
  rw [ne_eq, ← UInt8.toNat_inj, UInt8.toNat_and, hmask ⟨x, hx⟩, Nat.and_two_pow]
  cases bits.toNat.testBit (7 - x) <;> simp

/-- The pixels of a character tell its glyph. -/
theorem glyph_of_dots {ch ch' : UInt8} (h : Printable ch) (h' : Printable ch')
    (hdots : ∀ i < 128, dot ch i = dot ch' i) : glyph ch = glyph ch' := by
  have hlen := (font_shape.2 _ h.glyph_mem).1
  have hlen' := (font_shape.2 _ h'.glyph_mem).1
  refine List.ext_getElem (hlen.trans hlen'.symm) fun y hy hy' => ?_
  refine UInt8.toNat_inj.mp (Nat.eq_of_testBit_eq fun k => ?_)
  by_cases hk : k < 8
  · have hdot := hdots (y * 8 + (7 - k)) (by omega)
    have hdiv : (y * 8 + (7 - k)) / fontWidth = y := by show _ / 8 = y; omega
    have hmod : (y * 8 + (7 - k)) % fontWidth = 7 - k := by show _ % 8 = 7 - k; omega
    rw [dot, dot, hdiv, hmod, List.getElem?_eq_getElem hy, List.getElem?_eq_getElem hy',
      decide_eq_decide, Option.getD_some, Option.getD_some, and_mask_ne_zero _ (by omega),
      and_mask_ne_zero _ (by omega), show 7 - (7 - k) = k by omega] at hdot
    exact Bool.eq_iff_iff.mpr hdot
  · have hbig (b : UInt8) : b.toNat < 2 ^ k :=
      Nat.lt_of_lt_of_le b.toNat_lt (Nat.pow_le_pow_right (by decide) (by omega))
    rw [Nat.testBit_lt_two_pow (hbig _), Nat.testBit_lt_two_pow (hbig _)]

theorem dot_of_isBlank {ch : UInt8} (h : IsBlank ch) {i : Nat} (hi : i < 128) :
    dot ch i = false := by
  have hall : ∀ i : Fin 128, dot blank i = false ∧ dot underscore i = false := by decide +kernel
  rcases h with rfl | rfl
  · exact (hall ⟨i, hi⟩).1
  · exact (hall ⟨i, hi⟩).2

theorem exists_dot {ch : UInt8} (h : Printable ch) (hb : ¬IsBlank ch) : ∃ i < 128, dot ch i := by
  by_contra hnone
  have hdots : ∀ i < 128, dot ch i = dot blank i := by
    intro i hi
    rw [dot_of_isBlank (.inl rfl) hi]
    exact Bool.eq_false_iff.mpr fun hd => hnone ⟨i, hi, hd⟩
  have hblank : Printable blank := by decide
  rcases glyph_injective h hblank (glyph_of_dots h hblank hdots) with he | ⟨hb', -⟩
  · exact hb (.inl he)
  · exact hb hb'

theorem dot_first {ch : UInt8} (h : Printable ch) : dot ch 0 = false := by
  have hhead := (font_shape.2 _ h.glyph_mem).2
  rw [List.head?_eq_getElem?] at hhead
  rw [dot, show 0 / fontWidth = 0 from rfl, hhead]
  rfl

section Render

variable {c c' : Cell}

theorem renderCell_getElem (h : Printable c.ch) {i : Nat} (hi : i < 128) :
    (renderCell c)[i] = if dot c.ch i then c.fg else c.bg := by
  have hknown : ¬(c.ch < fontFirst ∨ c.ch > fontLast) :=
    not_or.mpr ⟨UInt8.not_lt.mpr h.1, UInt8.not_lt.mpr h.2⟩
  simp only [renderCell, if_neg hknown, Vector.getElem_ofFn]

/-- A printable character that stands out from its background. -/
structure Legible (c : Cell) : Prop where
  printable : Printable c.ch
  contrast : c.fg ≠ c.bg

/-- One background, and the same character in the same colour or no pixel at all. -/
def Cell.LooksLike (c c' : Cell) : Prop :=
  c.bg = c'.bg ∧ (IsBlank c.ch ∧ IsBlank c'.ch ∨ c.ch = c'.ch ∧ c.fg = c'.fg)

/-- What a cell looks like tells what is in it, up to a blank and the colour of its missing pixels. -/
theorem renderCell_eq_iff (h : Legible c) (h' : Legible c') :
    renderCell c = renderCell c' ↔ c.LooksLike c' := by
  have hp := h.printable
  have hp' := h'.printable
  constructor
  · intro he
    have hpixel (i : Nat) (hi : i < 128) :
        (if dot c.ch i then c.fg else c.bg) = if dot c'.ch i then c'.fg else c'.bg := by
      rw [← renderCell_getElem hp hi, ← renderCell_getElem hp' hi, he]
    have hbg : c.bg = c'.bg := by
      have hfirst := hpixel 0 (by decide)
      rwa [dot_first hp, dot_first hp', if_neg Bool.false_ne_true, if_neg Bool.false_ne_true]
        at hfirst
    have hdots (i : Nat) (hi : i < 128) : dot c.ch i = dot c'.ch i := by
      have hone := hpixel i hi
      have hfg := h.contrast
      have hfg' := h'.contrast
      cases hd : dot c.ch i <;> cases hd' : dot c'.ch i <;> simp_all
    refine ⟨hbg, ?_⟩
    rcases glyph_injective hp hp' (glyph_of_dots hp hp' hdots) with hch | hblanks
    · by_cases hb : IsBlank c.ch
      · exact .inl ⟨hb, hch ▸ hb⟩
      · obtain ⟨i, hi, hd⟩ := exists_dot hp hb
        have hink := hpixel i hi
        rw [if_pos hd, if_pos (hdots i hi ▸ hd)] at hink
        exact .inr ⟨hch, hink⟩
    · exact .inl hblanks
  · rintro ⟨hbg, ⟨hb, hb'⟩ | ⟨hch, hc⟩⟩
    · refine Vector.ext fun i hi => ?_
      rw [renderCell_getElem hp hi, renderCell_getElem hp' hi, dot_of_isBlank hb hi,
        dot_of_isBlank hb' hi]
      exact hbg
    · cases c; cases c'; cases hbg; cases hch; cases hc; rfl

/-- What can be told of a cell: that it is all of one colour, or its character and its colours. -/
inductive Look where
  | solid (color : UInt16)
  | drawn (ch : UInt8) (fg bg : UInt16)
deriving DecidableEq, Repr

def Cell.look (c : Cell) : Look :=
  if ¬Printable c.ch ∨ c.fg = c.bg then .solid c.fg
  else if IsBlank c.ch then .solid c.bg
  else .drawn c.ch c.fg c.bg

/-- A cell of one colour. -/
theorem renderCell_solid {color : UInt16} (h : c.look = .solid color) :
    renderCell c = Vector.replicate 128 color := by
  unfold Cell.look at h
  refine Vector.ext fun i hi => ?_
  rw [Vector.getElem_replicate]
  split at h
  · rename_i hsolid
    cases h
    by_cases hp : Printable c.ch
    · rw [renderCell_getElem hp hi, ← hsolid.resolve_left (not_not.mpr hp), ite_self]
    · have hunknown : c.ch < fontFirst ∨ c.ch > fontLast := by
        rw [Printable, not_and_or, UInt8.not_le, UInt8.not_le] at hp
        exact hp
      simp only [renderCell, if_pos hunknown, Vector.getElem_replicate]
  · rename_i hcontrast
    rw [not_or, not_not] at hcontrast
    split at h
    · rename_i hb
      cases h
      rw [renderCell_getElem hcontrast.1 hi, dot_of_isBlank hb hi, if_neg Bool.false_ne_true]
    · cases h

/-- A cell with a character to be seen has both its colours. -/
theorem renderCell_drawn {ch : UInt8} {fg bg : UInt16} (h : c.look = .drawn ch fg bg) :
    c = ⟨ch, fg, bg⟩ ∧ Legible c ∧ ¬IsBlank ch ∧
      ∀ color, renderCell c ≠ Vector.replicate 128 color := by
  unfold Cell.look at h
  split at h
  · cases h
  · rename_i hcontrast
    rw [not_or, not_not] at hcontrast
    split at h
    · cases h
    · rename_i hb
      cases h
      refine ⟨rfl, ⟨hcontrast.1, hcontrast.2⟩, hb, fun color he => ?_⟩
      obtain ⟨i, hi, hd⟩ := exists_dot hcontrast.1 hb
      have hfirst := renderCell_getElem hcontrast.1 (show 0 < 128 by decide)
      have hink := renderCell_getElem hcontrast.1 hi
      simp only [he, Vector.getElem_replicate, dot_first hcontrast.1, hd, if_true,
        Bool.false_eq_true, if_false] at hfirst hink
      exact hcontrast.2 (hink.symm.trans hfirst)

/-- **What a cell looks like tells its look**: the pixels of two cells are the same exactly if both
are of one colour, which they are without a character of the font, without a contrast and with one
of the two blank characters, or if they have the same character in the same two colours. -/
theorem renderCell_look (c c' : Cell) : renderCell c = renderCell c' ↔ c.look = c'.look := by
  have hzero : (0 : Nat) < 128 := by decide
  cases hl : c.look with
  | solid color =>
    rw [renderCell_solid hl]
    cases hl' : c'.look with
    | solid color' =>
      rw [renderCell_solid hl', Look.solid.injEq]
      refine ⟨fun he => ?_, fun he => by rw [he]⟩
      have hfirst := congrArg (fun pixels => pixels[0]) he
      simpa only [Vector.getElem_replicate] using hfirst
    | drawn ch fg bg =>
      exact iff_of_false (fun he => (renderCell_drawn hl').2.2.2 _ he.symm) nofun
  | drawn ch fg bg =>
    obtain ⟨hc, hlegible, hb, hcolors⟩ := renderCell_drawn hl
    cases hl' : c'.look with
    | solid color => rw [renderCell_solid hl']; exact iff_of_false (hcolors color) nofun
    | drawn ch' fg' bg' =>
      obtain ⟨hc', hlegible', hb', -⟩ := renderCell_drawn hl'
      rw [renderCell_eq_iff hlegible hlegible', hc, hc', Cell.LooksLike, Look.drawn.injEq]
      constructor
      · rintro ⟨hbg, ⟨hblank, -⟩ | ⟨hch, hfg⟩⟩
        · exact absurd hblank hb
        · exact ⟨hch, hfg, hbg⟩
      · rintro ⟨hch, hfg, hbg⟩
        exact ⟨hbg, .inr ⟨hch, hfg⟩⟩

end Render

end Rjs

import Mathlib.Data.Prod.Basic
import Mathlib.Logic.Function.Basic
import Mathlib.Tactic.Common
import Enviroment.Led.Font

/-!
# Drawing on the display (`LED_12.c`)

`LED_DATA` holds the pixels in the order in which the panel is scanned: the rows of a glyph are
spread over its first index, modulo four, and over four bytes of its second index, from the last
to the first.

* `LedData.store`, `fontAt`       an assignment to `LED_DATA`, a byte of a font; `none` is an index
                                  out of bounds;
* `glyphLoops`                    the two pairs of loops that all drawing functions have;
* `ledShowChar`, `ledShowString`  the functions for characters;
* `ledShowChese`, `ledShowNChese` the functions for Chinese characters;
* `ledClear`.
-/

namespace ENV

/-- `rt_uint8_t LED_DATA[4*3][16*3]` -/
abbrev LedData := Fin 12 × Fin 48 → Byte

/-- `LED_DATA[r][c]=v` -/
def LedData.store (d : LedData) (r c : Nat) (v : Option Byte) : Option LedData :=
  if h : r < 12 ∧ c < 48 then v.map (Function.update d (⟨r, h.1⟩, ⟨c, h.2⟩)) else none

/-- `font[ch][k]` -/
def fontAt (font : List (List Byte)) (ch : Nat) (k : Int) : Option Byte :=
  if 0 ≤ k then (font[ch]?).bind fun glyph => glyph[k.toNat]? else none

/-- `for(;i<e;i++) for(j=s;j<s+4;j++)` -/
def loopPairs (i e s : Nat) : List (Nat × Nat) :=
  (List.range' i (e - i)).product (List.range' s 4)

/-- the loops of a drawing function; `put` is their body, for the indices of `LED_DATA` and of the
glyph -/
def glyphLoops (put : LedData → Nat → Nat → Int → Option LedData) (x y size : Nat)
    (d : LedData) : Option LedData :=
  let t := y / 4
  let y := y % 4
  let i := if size = 12 ∧ y = 0 then 1 else 0
  let upper := (loopPairs i (4 - y) 0).foldlM
    (fun d ij => put d (ij.2 + 4 * t) (ij.1 + 4 * x) (12 + ij.2 - 4 * ij.1 - 4 * y)) d
  upper.bind fun d =>
    -- what is below the display is not drawn
    if t ≥ 2 then some d
    else
      let i := if size = 12 then 5 - y else 4 - y
      (loopPairs i 4 4).foldlM
        (fun d ij => put d (ij.2 + 4 * t) (ij.1 + 4 * x) (24 + ij.2 - 4 * ij.1 - 4 * y)) d

/-! ## characters -/

def asciiFont (size : Nat) : List (List Byte) := if size = 12 then ascii12 else ascii16

/-- the body of the loops -/
def putChar (size : Nat) (ch : Byte) (d : LedData) (r c : Nat) (k : Int) : Option LedData :=
  d.store r c (fontAt (asciiFont size) ch.toNat k)

/-- `LED_ShowChar(x, y, size, ch)` -/
def ledShowChar (x y size : Nat) (ch : Byte) (d : LedData) : Option LedData :=
  let ch := ch - 0x20
  glyphLoops (putChar size ch) x y size d

/-- the bytes of a text of the source -/
def bytes (s : String) : List Byte := s.toList.map fun c => BitVec.ofNat 8 c.toNat

/-- `(*str<='~')&&(*str>=' ')` -/
def printable (ch : Byte) : Bool := ch ≤ 0x7e && ch ≥ 0x20

/-- `LED_ShowString(x, y, size, str)`, where `str` points to the index `p`; `none` is a character
that cannot be read -/
def ledShowString (x y size : Nat) (str : Nat → Option Byte) (p : Nat) (d : LedData) :
    Option LedData :=
  (str p).bind fun ch =>
    if printable ch then
      (ledShowChar x y size ch d).bind fun d =>
        if x + 1 > 11 then some d else ledShowString (x + 1) y size str (p + 1) d
    else some d
termination_by 12 - x

/-! ## Chinese characters -/

def cheseFont (size : Nat) : List (List Byte) := if size = 12 then chese12 else chese16

/-- the loop over `Chese_index`: it compares the first byte, and the last match counts -/
def cheseIndexOf (ch : Byte) : Nat :=
  (List.range 10).foldl (fun index i =>
    if (cheseIndex[i]?).bind (·.head?) = some ch then i * 2 else index) 0

/-- the body of the loops: the left half, and the right half in the next column -/
def putChese (size index : Nat) (d : LedData) (r c : Nat) (k : Int) : Option LedData :=
  (d.store r c (fontAt (cheseFont size) index k)).bind fun d =>
    d.store r (c + 4) (fontAt (cheseFont size) (index + 1) k)

/-- `LED_ShowChese(x, y, size, str)`, where `str` points to the index `p` -/
def ledShowChese (x y size : Nat) (str : Nat → Option Byte) (p : Nat) (d : LedData) :
    Option LedData :=
  (str p).bind fun ch =>
    glyphLoops (putChese size (cheseIndexOf ch)) x y size d

/-- `LED_ShowNChese(x, y, size, n, str)`; the count is an `rt_uint16_t` -/
def ledShowNChese (x y size : Nat) (n : BitVec 16) (str : Nat → Option Byte) (p : Nat)
    (d : LedData) : Option LedData :=
  (ledShowChese x y size str p d).bind fun d =>
    if n - 1 = 0 ∨ x + 2 > 10 then some d
    else ledShowNChese (x + 2) y size (n - 1) str (p + 2) d
termination_by 11 - x

/-- `LED_Clear()` -/
def ledClear : LedData := fun _ => 0

end ENV

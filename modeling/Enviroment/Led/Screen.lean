import Enviroment.Kernel.Types
import Enviroment.Led.Blit
import Enviroment.Lib.Text
import Enviroment.Lib.Trace

/-!
# The display thread (`LED_thread_entry`)

The thread prints the values that it receives into five arrays of 12 characters, and from time to
time draws one of two screens from them.

* `Buf`                 an array of 12 characters, `Buf.sprintf` what `sprintf` leaves in it;
* `screenOne`, `screenTwo`   the two redraws;
* `ledTurn`             one turn of the loop of the thread; what the locals hold after an array was
                        overrun comes with the label;
* `Legible`             every text fits into its array, and every redraw shows its strings, cut at
                        most at the right edge and behind their numbers;
* `Narrow`              the dust values are digits, and a humidity that is drawn has at most four
                        characters.

`%0.1f` of a value by ten prints the exact decimal.
-/

namespace ENV

/-! ## texts -/

/-- the bytes of characters -/
def toBytes (cs : List Char) : List Byte := cs.map fun c => BitVec.ofNat 8 c.toNat

/-- `%0.1f` of `v/10.0` -/
def tenths (v : Int) : List Char :=
  (if v < 0 then ['-'] else []) ++ Nat.toDigits 10 (v.natAbs / 10) ++ ['.'] ++
    Nat.toDigits 10 (v.natAbs % 10)

def t1Text (t : Word) : List Byte := bytes ":" ++ toBytes (tenths t.toInt) ++ bytes " C"
def h1Text (h : Word) : List Byte := bytes ":" ++ toBytes (tenths h.toInt)
def z1Text (n : Word) : List Byte := bytes ":" ++ toBytes (tenths n.toInt) ++ bytes "db"
def pm2_5Text (p2 : Word) : List Byte :=
  bytes " 2.5:" ++ toBytes (Text.decimal p2.toInt) ++ bytes "ug/m3"
def pm10Text (p10 : Word) : List Byte :=
  bytes "  10:" ++ toBytes (Text.decimal p10.toInt) ++ bytes "ug/m3"

/-! ## the locals -/

/-- `char buf[12]` -/
structure Buf where
  chars : List Byte
  length_chars : chars.length = 12

/-- an array with an initializer -/
def Buf.init (text : List Byte) (h : text.length ≤ 12) : Buf :=
  ⟨text ++ List.replicate (12 - text.length) 0, by
    rw [List.length_append, List.length_replicate]
    omega⟩

/-- `sprintf` of a text that fits with its terminator -/
def Buf.sprintf (b : Buf) (text : List Byte) : Buf :=
  if h : text.length + 1 ≤ 12 then
    ⟨text ++ [0] ++ b.chars.drop (text.length + 1), by
      rw [List.length_append, List.length_append, List.length_drop, b.length_chars,
        List.length_singleton]
      omega⟩
  else b

structure LedLocals where
  i : Nat
  t1 : Buf
  h1 : Buf
  z1 : Buf
  pm2_5 : Buf
  pm10 : Buf

def ledLocalsInit : LedLocals :=
  ⟨0, Buf.init (bytes ":--.- C") (by decide), Buf.init (bytes ":--.-") (by decide),
    Buf.init (bytes ":--.-db") (by decide), Buf.init (bytes " 2.5:--ug/m3") (by decide),
    Buf.init (bytes "  10:--ug/m3") (by decide)⟩

/-- what the five `rt_mb_recv` of a turn give; `none` is a timeout -/
structure Received where
  t : Option Word
  h : Option Word
  n : Option Word
  p2 : Option Word
  p10 : Option Word

/-- the texts that are printed -/
def Received.texts (r : Received) : List (List Byte) :=
  (r.t.map t1Text).toList ++ (r.h.map h1Text).toList ++ (r.n.map z1Text).toList ++
    (r.p2.map pm2_5Text).toList ++ (r.p10.map pm10Text).toList

/-- all texts fit into their arrays -/
def Received.Fits (r : Received) : Prop := ∀ text ∈ r.texts, text.length + 1 ≤ 12

instance (r : Received) : Decidable r.Fits := inferInstanceAs (Decidable (∀ _ ∈ _, _))

def LedLocals.print (l : LedLocals) (r : Received) : LedLocals :=
  { l with
    t1 := r.t.elim l.t1 fun v => l.t1.sprintf (t1Text v)
    h1 := r.h.elim l.h1 fun v => l.h1.sprintf (h1Text v)
    z1 := r.n.elim l.z1 fun v => l.z1.sprintf (z1Text v)
    pm2_5 := r.p2.elim l.pm2_5 fun v => l.pm2_5.sprintf (pm2_5Text v)
    pm10 := r.p10.elim l.pm10 fun v => l.pm10.sprintf (pm10Text v) }

/-! ## the screens -/

/-- a string of the source, with its terminator -/
def literal (s : String) (i : Nat) : Option Byte := (bytes s ++ [0])[i]?

/-- a string in an array -/
def Buf.str (b : Buf) (i : Nat) : Option Byte := b.chars[i]?

/-- a string of Chinese characters -/
def chinese (s : List Byte) (i : Nat) : Option Byte := (s ++ [0])[i]?

def dustMonitor : List Byte := [0xd1, 0xef, 0xb3, 0xbe, 0xbc, 0xe0, 0xb2, 0xe2]
def temperatureLabel : List Byte := [0xce, 0xc2, 0xb6, 0xc8]
def humidityLabel : List Byte := [0xca, 0xaa, 0xb6, 0xc8]
def noiseLabel : List Byte := [0xd4, 0xeb, 0xd2, 0xf4]
def valueLabel : List Byte := [0xd6, 0xb5]

/-- the redraw of `i%500==0` -/
def screenOne (l : LedLocals) : Option LedData := do
  let d ← ledShowNChese 3 0 12 4 (chinese dustMonitor) 0 ledClear
  let d ← ledShowNChese 0 3 12 2 (chinese temperatureLabel) 0 d
  let d ← ledShowString 4 3 12 l.t1.str 0 d
  let d ← ledShowNChese 0 6 12 2 (chinese humidityLabel) 0 d
  let d ← ledShowString 4 6 12 l.h1.str 0 d
  let d ← ledShowString 9 6 12 (literal "%RH") 0 d
  let d ← ledShowNChese 0 9 12 2 (chinese noiseLabel) 0 d
  ledShowString 4 9 12 l.z1.str 0 d

/-- the redraw of `i%1000==0` -/
def screenTwo (l : LedLocals) : Option LedData := do
  let d ← ledShowNChese 3 0 12 4 (chinese dustMonitor) 0 ledClear
  let d ← ledShowString 0 3 12 (literal "PM") 0 d
  let d ← ledShowChese 2 3 12 (chinese valueLabel) 0 d
  let d ← ledShowString 0 6 12 l.pm2_5.str 0 d
  ledShowString 0 9 12 l.pm10.str 0 d

/-! ## the loop -/

structure LedThread where
  locals : LedLocals
  data : LedData
  /-- the humidity in `h1`, if any was received -/
  lastH : Option Word

/-- a turn of the loop: the semaphore is not there, or a sample is received; `clobbered` is what
the locals hold in case an array is overrun -/
inductive LedIn where
  | idle
  | sample (r : Received) (clobbered : LedLocals)

/-- the locals behind the receipt of a sample -/
def LedThread.received (s : LedThread) : LedIn → LedLocals
  | .idle => s.locals
  | .sample r clobbered => if r.Fits then s.locals.print r else clobbered

def LedThread.heldH (s : LedThread) : LedIn → Option Word
  | .idle => s.lastH
  | .sample r _ => r.h.or s.lastH

/-- one turn; a redraw out of bounds would leave the display as it is -/
def ledTurn (s : LedThread) (a : LedIn) : Option LedThread :=
  let l := s.received a
  let d := if l.i % 500 = 0 then (screenOne l).getD s.data else s.data
  let d := if l.i % 1000 = 0 then (screenTwo l).getD d else d
  let i := if l.i % 1000 = 0 then 0 else l.i
  some ⟨{ l with i := i + 1 }, d, s.heldH a⟩

def ledInit (d : LedData) : LedThread := ⟨ledLocalsInit, d, none⟩

/-! ## the statement -/

/-- the characters that a redraw takes from an array -/
def Buf.content (b : Buf) : List Byte := b.chars.takeWhile printable

/-- a digit, a sign or a point -/
def numeric (c : Byte) : Bool := (0x30 ≤ c && c ≤ 0x39) || c == 0x2d || c == 0x2e

/-- the number behind the first `k` characters of a text -/
def numField (k : Nat) (text : List Byte) : List Byte := (text.drop k).takeWhile numeric

/-- the glyphs of a text -/
def asciiGlyphs (text : List Byte) : List (Nat → Byte) := text.map (asciiRow 12)

/-- the glyphs of Chinese characters of two bytes -/
def chineseGlyphs : List Byte → List (Nat → Byte)
  | ch :: _ :: s => cheseHalves 12 ch ++ chineseGlyphs s
  | _ => []

/-- the display shows the glyphs from `x` and `y` on, up to the right edge -/
def ShownAt (d : LedData) (x y : Nat) (glyphs : List (Nat → Byte)) : Prop :=
  ∀ k (hk : k < glyphs.length) (hx : x + k < 12) g (_ : g < 12) (hR : 4 * y + g < 48),
    d (cellOf ⟨x + k, hx⟩ ⟨4 * y + g, hR⟩) = glyphs[k] g

/-- the string in an array is shown, and its number is left of the right edge -/
def LegibleAt (d : LedData) (x y k : Nat) (b : Buf) : Prop :=
  ShownAt d x y (asciiGlyphs b.content) ∧ x + k + (numField k b.content).length ≤ 12

structure LegibleOne (l : LedLocals) (d : LedData) : Prop where
  title : ShownAt d 3 0 (chineseGlyphs dustMonitor)
  temperature : ShownAt d 0 3 (chineseGlyphs temperatureLabel)
  t1 : LegibleAt d 4 3 1 l.t1
  humidity : ShownAt d 0 6 (chineseGlyphs humidityLabel)
  h1 : LegibleAt d 4 6 1 l.h1
  rh : ShownAt d 9 6 (asciiGlyphs (bytes "%RH"))
  noise : ShownAt d 0 9 (chineseGlyphs noiseLabel)
  z1 : LegibleAt d 4 9 1 l.z1

structure LegibleTwo (l : LedLocals) (d : LedData) : Prop where
  title : ShownAt d 3 0 (chineseGlyphs dustMonitor)
  pm : ShownAt d 0 3 (asciiGlyphs (bytes "PM"))
  value : ShownAt d 2 3 (chineseGlyphs valueLabel)
  pm2_5 : LegibleAt d 0 6 5 l.pm2_5
  pm10 : LegibleAt d 0 9 5 l.pm10

def LedIn.Fits : LedIn → Prop
  | .idle => True
  | .sample r _ => r.Fits

/-- what a turn owes -/
structure Legible (s : LedThread) (a : LedIn) (_ : LedThread) : Prop where
  fits : a.Fits
  one : (s.received a).i % 500 = 0 →
    ∃ d, screenOne (s.received a) = some d ∧ LegibleOne (s.received a) d
  two : (s.received a).i % 1000 = 0 →
    ∃ d, screenTwo (s.received a) = some d ∧ LegibleTwo (s.received a) d

/-- one digit -/
def OneDigit (v : Word) : Prop := 0 ≤ v.toInt ∧ v.toInt ≤ 9

def LedIn.Digits : LedIn → Prop
  | .idle => True
  | .sample r _ => (∀ v ∈ r.p2, OneDigit v) ∧ ∀ v ∈ r.p10, OneDigit v

/-- the dust values have one digit, and a humidity that is drawn is between -9.9 and 99.9 -/
def Narrow (s : LedThread) (a : LedIn) (_ : LedThread) : Prop :=
  a.Digits ∧ (s.locals.i % 500 = 0 → ∀ v ∈ s.heldH a, -99 ≤ v.toInt ∧ v.toInt ≤ 999)

end ENV

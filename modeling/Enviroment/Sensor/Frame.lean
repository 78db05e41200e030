import Mathlib.Data.Fin.VecNotation
import Mathlib.Data.List.OfFn
import Mathlib.Tactic.Common
import Enviroment.Kernel.Types

/-!
# The BYH-M sensor driver (`Mydevice/BYH_M.c`)

* `crc16ModbusRTU`    the checksum, bit by bit as in the source;
* `theCMD`            the eight bytes a get function writes to the serial device;
* `rtDeviceRead`      what a read leaves in the uninitialised local buffer `temp`;
* `byhMGet`           the common body of the three get functions, `byhMGetHumiture`,
                      `byhMGetNoise`, `byhMGetPMData` its three instances;
* `Get.registers`     the registers in the buffer, as two's-complement numbers.

The delivered bytes are an argument of the get functions: what the line holds when they read is
the business of `Enviroment.Sensor.Line`.
-/

namespace ENV

/-! ## checksum -/

/-- one turn of the inner loop -/
def crcBit (wCRCin : Word) : Word :=
  if wCRCin &&& 0x0001 ≠ 0 then (wCRCin >>> 1) ^^^ 0xa001 else wCRCin >>> 1

/-- one turn of the outer loop: eight turns of the inner one -/
def crcByte (wCRCin : Word) (wChar : Byte) : Word :=
  crcBit^[8] (wCRCin ^^^ wChar.setWidth 16)

/-- the register after the loop, before the bytes are swapped -/
def crcReg (puchMsg : List Byte) : Word := puchMsg.foldl crcByte 0xFFFF

def crc16ModbusRTU (puchMsg : List Byte) : Word :=
  let wCRCin := crcReg puchMsg
  let tmp := (wCRCin <<< 8) &&& 0xff00
  tmp ||| ((wCRCin >>> 8) &&& 0x00ff)

/-- `(hi<<8)|lo` in a 16-bit variable -/
def word (hi lo : Byte) : Word := (hi.setWidth 16 <<< 8) ||| lo.setWidth 16

/-- `(rt_uint8_t)(crc>>8)` -/
def crcHi (crc : Word) : Byte := (crc >>> 8).setWidth 8
/-- `(rt_uint8_t)crc` -/
def crcLo (crc : Word) : Byte := crc.setWidth 8

/-! ## the data block -/

/-- `BYH_M_t`; the five values are `rt_int16_t` bit patterns -/
structure ByhM where
  cmd : Fin 6 → Byte
  temperature_x10 : Word
  humidity_x10 : Word
  noise_x10 : Word
  pm2_5 : Word
  pm10 : Word

/-- `BYH_DATA` as the sensor thread initialises it -/
def byhDataInit : ByhM := ⟨![0x0b, 0x03, 0x01, 0xf4, 0x00, 0x00], 0, 0, 0, 0, 0⟩

/-- what distinguishes the three get functions before they store -/
structure Query where
  /-- added to `The_CMD[3]` -/
  reg : Byte
  /-- added to `The_CMD[5]` -/
  cnt : Byte
  /-- bytes asked of `rt_device_read`; the last two are the checksum -/
  n : Nat
  five_le : 5 ≤ n
  le_ten : n ≤ 10

/-- the request: base command, register and count adjusted, checksum high byte first -/
def theCMD (q : Query) (byh : ByhM) : List Byte :=
  let c := [byh.cmd 0, byh.cmd 1, byh.cmd 2, byh.cmd 3 + q.reg, byh.cmd 4, byh.cmd 5 + q.cnt]
  let crc := crc16ModbusRTU c
  c ++ [crcHi crc, crcLo crc]

/-- `rt_uint8_t temp[10]` -/
abbrev Temp := Fin 10 → Byte

/-- `temp` after `rt_device_read` delivered `d`: the rest of the buffer keeps what it held -/
def rtDeviceRead (d : List Byte) (temp : Temp) : Temp := fun i => d.getD i (temp i)

/-- the first `n` bytes of `temp` -/
def Temp.take (temp : Temp) (n : Nat) : List Byte := (List.ofFn temp).take n

/-- the checksum test of the get functions, on the buffer as the read left it -/
def crcTest (q : Query) (temp : Temp) : Bool :=
  word (temp ⟨q.n - 2, by have := q.five_le; have := q.le_ten; omega⟩)
      (temp ⟨q.n - 1, by have := q.five_le; have := q.le_ten; omega⟩)
    == crc16ModbusRTU (temp.take (q.n - 2))

/-- the common body of the get functions from the read on -/
def byhMGet (q : Query) (save : Temp → ByhM → ByhM) (d : List Byte) (temp : Temp) (byh : ByhM) :
    RtErr × ByhM :=
  let temp := rtDeviceRead d temp
  if crcTest q temp then (rtEok, save temp byh) else (rtError, byh)

def humitureQuery : Query := ⟨0, 2, 9, by decide, by decide⟩
def noiseQuery : Query := ⟨2, 1, 7, by decide, by decide⟩
def pmQuery : Query := ⟨3, 2, 9, by decide, by decide⟩

def saveHumiture (temp : Temp) (byh : ByhM) : ByhM :=
  { byh with humidity_x10 := word (temp 3) (temp 4), temperature_x10 := word (temp 5) (temp 6) }
def saveNoise (temp : Temp) (byh : ByhM) : ByhM :=
  { byh with noise_x10 := word (temp 3) (temp 4) }
def savePM (temp : Temp) (byh : ByhM) : ByhM :=
  { byh with pm2_5 := word (temp 3) (temp 4), pm10 := word (temp 5) (temp 6) }

def byhMGetHumiture (d : List Byte) (temp : Temp) (byh : ByhM) : RtErr × ByhM :=
  byhMGet humitureQuery saveHumiture d temp byh
def byhMGetNoise (d : List Byte) (temp : Temp) (byh : ByhM) : RtErr × ByhM :=
  byhMGet noiseQuery saveNoise d temp byh
def byhMGetPMData (d : List Byte) (temp : Temp) (byh : ByhM) : RtErr × ByhM :=
  byhMGet pmQuery savePM d temp byh

/-! ## the three functions as one family -/

inductive Get where
  | humiture
  | noise
  | pm
deriving DecidableEq

def Get.query : Get → Query
  | .humiture => humitureQuery
  | .noise => noiseQuery
  | .pm => pmQuery

def Get.save : Get → Temp → ByhM → ByhM
  | .humiture => saveHumiture
  | .noise => saveNoise
  | .pm => savePM

def Get.call : Get → List Byte → Temp → ByhM → RtErr × ByhM
  | .humiture => byhMGetHumiture
  | .noise => byhMGetNoise
  | .pm => byhMGetPMData

theorem Get.call_eq (g : Get) : g.call = byhMGet g.query g.save := by
  cases g <;> rfl

/-- the fields a get function fills, in the order of the registers it asks for -/
def Get.values : Get → ByhM → List Word
  | .humiture, byh => [byh.humidity_x10, byh.temperature_x10]
  | .noise, byh => [byh.noise_x10]
  | .pm, byh => [byh.pm2_5, byh.pm10]

/-- the register in two bytes, read as a two's-complement number -/
def twosComplement (hi lo : Byte) : Int :=
  if 256 * hi.toNat + lo.toNat < 32768 then 256 * hi.toNat + lo.toNat
  else 256 * hi.toNat + lo.toNat - 65536

/-- the registers that a get function takes from the buffer -/
def Get.registers : Get → Temp → List Int
  | .humiture, temp =>
    [twosComplement (temp 3) (temp 4), twosComplement (temp 5) (temp 6)]
  | .noise, temp => [twosComplement (temp 3) (temp 4)]
  | .pm, temp => [twosComplement (temp 3) (temp 4), twosComplement (temp 5) (temp 6)]

end ENV

import Mathlib.Data.List.GetD
import Enviroment.Sensor.Frame

/-!
# What the get functions accept

The only test of a get function is the checksum of the buffer `temp`, and `temp` is what the read
delivered OVER what the stack held.  Here the delivered bytes are compared with the normal Modbus
reply to the request just sent:

* `word_eq_iff`      two bytes make up a word exactly if they are its halves;
* `Temp.take_read`   the part of `temp` that a read fills;
* `NormalReply`      slave address, function code, byte count and checksum of a normal reply;
* `Exact`            the verdict is right and does not depend on the old content of `temp`;
* `exact_iff`        for which delivered bytes it is.
-/

namespace ENV

/-! ## words and bytes -/

theorem crcHi_word (hi lo : Byte) : crcHi (word hi lo) = hi := by
  apply BitVec.eq_of_getLsbD_eq
  intro i hi8
  have h : ¬ 8 + i < 8 := by omega
  have h16 : 8 + i < 16 := by omega
  simp [crcHi, word, hi8, h, h16]

theorem crcLo_word (hi lo : Byte) : crcLo (word hi lo) = lo := by
  apply BitVec.eq_of_getLsbD_eq
  intro i hi8
  simp [crcLo, word, hi8]

theorem word_crcHi_crcLo (w : Word) : word (crcHi w) (crcLo w) = w := by
  apply BitVec.eq_of_getLsbD_eq
  intro i hi16
  by_cases h : i < 8
  · simp [crcHi, crcLo, word, hi16, h]
  · have e : 8 + (i - 8) = i := by omega
    have h8 : i - 8 < 16 := by omega
    simp [crcHi, crcLo, word, hi16, h, e, h8]
    omega

theorem word_eq_iff (hi lo : Byte) (w : Word) : word hi lo = w ↔ hi = crcHi w ∧ lo = crcLo w := by
  constructor
  · rintro rfl
    exact ⟨(crcHi_word hi lo).symm, (crcLo_word hi lo).symm⟩
  · rintro ⟨rfl, rfl⟩
    exact word_crcHi_crcLo w

theorem toInt_word (hi lo : Byte) : (word hi lo).toInt = twosComplement hi lo := by
  have h1 := hi.isLt
  have h2 := lo.isLt
  have hw : (word hi lo).toNat = 256 * hi.toNat + lo.toNat := by
    unfold word
    rw [BitVec.toNat_or, BitVec.toNat_shiftLeft, BitVec.toNat_setWidth, BitVec.toNat_setWidth,
      Nat.mod_eq_of_lt (a := hi.toNat) (by omega), Nat.mod_eq_of_lt (a := lo.toNat) (by omega),
      Nat.shiftLeft_eq, Nat.mod_eq_of_lt (by omega), Nat.mul_comm, ← Nat.two_pow_add_eq_or_of_lt h2]
  unfold twosComplement
  rw [BitVec.toInt_eq_toNat_cond, hw]
  split <;> split <;> omega

/-! ## the buffer after a read -/

theorem rtDeviceRead_filled {d : List Byte} {i : Fin 10} (h : i.val < d.length) (temp : Temp)
    (x : Byte) : rtDeviceRead d temp i = d.getD i x := by
  unfold rtDeviceRead
  rw [List.getD_eq_getElem _ _ h, List.getD_eq_getElem _ _ h]

theorem rtDeviceRead_stale {d : List Byte} {i : Fin 10} (h : d.length ≤ i.val) (temp : Temp) :
    rtDeviceRead d temp i = temp i := List.getD_eq_default _ _ h

theorem Temp.length_take (temp : Temp) {k : Nat} (hk : k ≤ 10) : (temp.take k).length = k := by
  simp [Temp.take, hk]

theorem Temp.take_congr {s t : Temp} {k : Nat} (h : ∀ i : Fin 10, i.val < k → s i = t i) :
    s.take k = t.take k := by
  unfold Temp.take
  apply List.ext_getElem
  · rw [List.length_take, List.length_take, List.length_ofFn, List.length_ofFn]
  · intro i h1 h2
    rw [List.length_take] at h1
    simp only [List.getElem_take, List.getElem_ofFn]
    exact h _ (by show i < k; omega)

theorem Temp.take_read {d : List Byte} {k : Nat} (hk : k ≤ 10) (hd : k ≤ d.length)
    (temp : Temp) : (rtDeviceRead d temp).take k = d.take k := by
  apply List.ext_getElem
  · rw [Temp.length_take _ hk, List.length_take, Nat.min_eq_left hd]
  · intro i h1 h2
    rw [Temp.length_take _ hk] at h1
    simp only [Temp.take, List.getElem_take, List.getElem_ofFn]
    rw [rtDeviceRead_filled (by show i < d.length; omega) temp 0,
      List.getD_eq_getElem _ _ (by show i < d.length; omega)]

/-! ## the verdict -/

/-- the last two of `n` bytes are the checksum of the others, high byte first -/
def CrcRight (n : Nat) (d : List Byte) : Prop :=
  word (d.getD (n - 2) 0) (d.getD (n - 1) 0) = crc16ModbusRTU (d.take (n - 2))

instance (n : Nat) (d : List Byte) : Decidable (CrcRight n d) :=
  inferInstanceAs (Decidable (_ = _))

/-- slave address, function code and byte count answer the request just sent -/
structure Header (q : Query) (byh : ByhM) (d : List Byte) : Prop where
  slave : d.getD 0 0 = byh.cmd 0
  func : d.getD 1 0 = 0x03
  count : (d.getD 2 0).toNat
    = 2 * (word ((theCMD q byh).getD 4 0) ((theCMD q byh).getD 5 0)).toNat

/-- the normal Modbus reply to the request just sent -/
structure NormalReply (q : Query) (byh : ByhM) (d : List Byte) : Prop where
  whole : d.length = q.n
  header : Header q byh d
  crc : CrcRight q.n d

/-- the call returns `RT_EOK` for the normal reply and `RT_ERROR` for anything else, whatever the
buffer held before -/
def Exact (g : Get) (byh : ByhM) (d : List Byte) : Prop :=
  ∀ temp, (NormalReply g.query byh d → (g.call d temp byh).1 = rtEok) ∧
    (¬ NormalReply g.query byh d → (g.call d temp byh).1 = rtError) ∧
    ∀ temp', (g.call d temp' byh).1 = (g.call d temp byh).1

theorem call_eok_iff (g : Get) (byh : ByhM) (d : List Byte) (temp : Temp) :
    (g.call d temp byh).1 = rtEok ↔ crcTest g.query (rtDeviceRead d temp) = true := by
  rw [g.call_eq]
  simp only [byhMGet]
  split
  next h => exact ⟨fun _ => h, fun _ => rfl⟩
  next h => exact ⟨fun e => absurd e rtError_ne_rtEok, fun e => absurd e h⟩

theorem call_error_iff (g : Get) (byh : ByhM) (d : List Byte) (temp : Temp) :
    (g.call d temp byh).1 = rtError ↔ crcTest g.query (rtDeviceRead d temp) = false := by
  rw [g.call_eq]
  simp only [byhMGet]
  split
  next h =>
    exact ⟨fun e => absurd e.symm rtError_ne_rtEok, fun e => absurd (h.symm.trans e) (by decide)⟩
  next h => exact ⟨fun _ => Bool.eq_false_iff.mpr h, fun _ => rfl⟩

/-- after a full read the test is about the delivered bytes alone -/
theorem crcTest_full (q : Query) (d : List Byte) (hd : d.length = q.n) (temp : Temp) :
    crcTest q (rtDeviceRead d temp) = true ↔ CrcRight q.n d := by
  have h5 := q.five_le
  have h10 := q.le_ten
  unfold crcTest CrcRight
  rw [beq_iff_eq, Temp.take_read (by omega) (by omega),
    rtDeviceRead_filled (by show q.n - 2 < d.length; omega) temp 0,
    rtDeviceRead_filled (by show q.n - 1 < d.length; omega) temp 0]

/-- when only the last byte is missing, the old content decides about that byte -/
theorem crcTest_one_short (q : Query) (d : List Byte) (hd : d.length + 1 = q.n) (temp : Temp) :
    crcTest q (rtDeviceRead d temp) = true ↔
      d.getD (q.n - 2) 0 = crcHi (crc16ModbusRTU (d.take (q.n - 2))) ∧
      temp ⟨q.n - 1, by have := q.five_le; have := q.le_ten; omega⟩
        = crcLo (crc16ModbusRTU (d.take (q.n - 2))) := by
  have h5 := q.five_le
  have h10 := q.le_ten
  unfold crcTest
  rw [beq_iff_eq, Temp.take_read (by omega) (by omega),
    rtDeviceRead_filled (by show q.n - 2 < d.length; omega) temp 0,
    rtDeviceRead_stale (by show d.length ≤ q.n - 1; omega) temp, word_eq_iff]

/-- old content of `temp` that completes `d` to a frame with a right checksum -/
def staleFor (q : Query) (d : List Byte) : Temp :=
  let body := (rtDeviceRead d fun _ => 0).take (q.n - 2)
  fun i => if i.val = q.n - 2 then crcHi (crc16ModbusRTU body)
    else if i.val = q.n - 1 then crcLo (crc16ModbusRTU body) else 0

/-- a read that leaves both checksum bytes to the old content can always be accepted -/
theorem crcTest_stale (q : Query) (d : List Byte) (hd : d.length + 2 ≤ q.n) :
    crcTest q (rtDeviceRead d (staleFor q d)) = true := by
  have h5 := q.five_le
  have h10 := q.le_ten
  have hbody : (rtDeviceRead d (staleFor q d)).take (q.n - 2)
      = (rtDeviceRead d fun _ => 0).take (q.n - 2) := by
    apply Temp.take_congr
    intro i hi
    have hz : staleFor q d i = 0 := by
      have h3 : ¬ i.val = q.n - 2 := by omega
      have h4 : ¬ i.val = q.n - 1 := by omega
      simp only [staleFor, if_neg h3, if_neg h4]
    show d.getD i.val (staleFor q d i) = d.getD i.val 0
    rw [hz]
  have hhi : staleFor q d ⟨q.n - 2, by omega⟩
      = crcHi (crc16ModbusRTU ((rtDeviceRead d fun _ => 0).take (q.n - 2))) := by
    simp only [staleFor, ↓reduceIte]
  have hlo : staleFor q d ⟨q.n - 1, by omega⟩
      = crcLo (crc16ModbusRTU ((rtDeviceRead d fun _ => 0).take (q.n - 2))) := by
    have h3 : ¬ q.n - 1 = q.n - 2 := by omega
    simp only [staleFor, if_neg h3, ↓reduceIte]
  unfold crcTest
  rw [beq_iff_eq, hbody, rtDeviceRead_stale (by show d.length ≤ q.n - 2; omega),
    rtDeviceRead_stale (by show d.length ≤ q.n - 1; omega), hhi, hlo, word_crcHi_crcLo]

/-- the verdict is right if the test of the checksum accepts the normal reply only -/
theorem exact_iff_crcTest (g : Get) (byh : ByhM) (d : List Byte) : Exact g byh d ↔
    ∀ temp, crcTest g.query (rtDeviceRead d temp) = true ↔ NormalReply g.query byh d := by
  constructor
  · intro h temp
    constructor
    · intro ht
      by_contra hn
      have he := (call_error_iff g byh d temp).mp ((h temp).2.1 hn)
      rw [ht] at he
      cases he
    · intro hn
      exact (call_eok_iff g byh d temp).mp ((h temp).1 hn)
  · intro h temp
    have hok : ∀ t, NormalReply g.query byh d → (g.call d t byh).1 = rtEok := fun t hn =>
      (call_eok_iff g byh d t).mpr ((h t).mpr hn)
    have herr : ∀ t, ¬ NormalReply g.query byh d → (g.call d t byh).1 = rtError := fun t hn =>
      (call_error_iff g byh d t).mpr (Bool.eq_false_iff.mpr fun e => hn ((h t).mp e))
    refine ⟨hok temp, herr temp, fun temp' => ?_⟩
    by_cases hn : NormalReply g.query byh d
    · rw [hok temp' hn, hok temp hn]
    · rw [herr temp' hn, herr temp hn]

/-- **The verdict is right for exactly these reads**: all bytes came and the checksum does not pass
under a wrong header, or all but the last one came and the first checksum byte is wrong. -/
theorem exact_iff (g : Get) (byh : ByhM) (d : List Byte) (hd : d.length ≤ g.query.n) :
    Exact g byh d ↔
      (d.length = g.query.n ∧ (CrcRight g.query.n d → Header g.query byh d)) ∨
      (d.length + 1 = g.query.n ∧
        d.getD (g.query.n - 2) 0 ≠ crcHi (crc16ModbusRTU (d.take (g.query.n - 2)))) := by
  rw [exact_iff_crcTest]
  constructor
  · intro h
    rcases Nat.lt_or_ge (d.length + 1) g.query.n with hshort | hlong
    · have hn := ((h _).mp (crcTest_stale g.query d (by omega))).whole
      omega
    · by_cases hfull : d.length = g.query.n
      · refine Or.inl ⟨hfull, fun hc => ?_⟩
        exact ((h fun _ => 0).mp ((crcTest_full g.query d hfull _).mpr hc)).header
      · have hone : d.length + 1 = g.query.n := by omega
        refine Or.inr ⟨hone, fun hhi => ?_⟩
        have hn := ((h fun _ => crcLo (crc16ModbusRTU (d.take (g.query.n - 2)))).mp
          ((crcTest_one_short g.query d hone _).mpr ⟨hhi, rfl⟩)).whole
        omega
  · rintro (⟨hfull, himp⟩ | ⟨hone, hhi⟩) temp
    · -- the verdict is the checksum of `d`
      rw [crcTest_full g.query d hfull]
      exact ⟨fun hc => ⟨hfull, himp hc, hc⟩, fun hn => hn.crc⟩
    · -- the last byte is missing and nothing can repair the one before it
      refine ⟨fun ht => absurd ((crcTest_one_short g.query d hone temp).mp ht).1 hhi, fun hn => ?_⟩
      have hwhole := hn.whole
      omega

/-- a reply of slave `0x0b` with two registers, and of slave `0x0c` -/
def replyFrame : List Byte := [0x0b, 0x03, 0x04, 0x02, 0x58, 0x00, 0xfa, 0x50, 0x1b]
def foreignFrame : List Byte := [0x0c, 0x03, 0x04, 0x02, 0x58, 0x00, 0xfa, 0x26, 0xdb]

theorem exact_iff_reply : replyFrame.length ≤ Get.humiture.query.n ∧
    (Exact .humiture byhDataInit replyFrame ↔
      (replyFrame.length = Get.humiture.query.n ∧
        (CrcRight 9 replyFrame → Header humitureQuery byhDataInit replyFrame)) ∨
      (replyFrame.length + 1 = Get.humiture.query.n ∧
        replyFrame.getD 7 0 ≠ crcHi (crc16ModbusRTU (replyFrame.take 7)))) :=
  ⟨by decide, exact_iff .humiture byhDataInit replyFrame (by decide)⟩

/-- nothing is delivered and the stack still holds an old reply; or another slave answers -/
theorem exact_fails : ¬ Exact .humiture byhDataInit [] ∧
    ¬ Exact .humiture byhDataInit foreignFrame := by
  constructor
  · intro h
    have hn : ¬ NormalReply humitureQuery byhDataInit [] := fun hr => absurd hr.whole (by decide)
    have he := (h (rtDeviceRead replyFrame fun _ => 0)).2.1 hn
    exact absurd he (by decide +kernel)
  · intro h
    have hn : ¬ NormalReply humitureQuery byhDataInit foreignFrame :=
      fun hr => absurd hr.header.slave (by decide)
    have he := (h fun _ => 0).2.1 hn
    exact absurd he (by decide +kernel)

end ENV

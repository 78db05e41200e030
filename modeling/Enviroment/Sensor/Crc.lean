import Mathlib.Tactic.NormNum.Prime
import Enviroment.Lib.Lfsr
import Enviroment.Sensor.Reply

/-!
# The checksum of the sensor frames (`CRC16_ModbusRTU`)

The loop over the bytes is a shift register that is fed with the bits of the message, the lowest
bit of a byte first.

* `crcReg_eq`           the loop as a register of `Enviroment.Lib.Lfsr`;
* `modbusFrame`         a message with the checksum that Modbus RTU defines;
* `residue_law`         a message followed by its checksum leaves the register empty;
* `ValidFrame`          the last two bytes are the checksum of the others;
* `damaged_rejected`    errors that the checksum finds in frames of any length.
-/

namespace ENV

open Lfsr (feedAll)

/-! ## the register -/

/-- the bits of a message in the order of their transmission -/
def frameBits (m : List Byte) : List Bool := m.flatMap Lfsr.bits

/-- `x^16 + x^15 + x^2 + 1` without its highest term, reflected -/
def modbusPoly : Word := 0xa001

theorem length_frameBits (m : List Byte) : (frameBits m).length = 8 * m.length := by
  induction m with
  | nil => rfl
  | cons b m ih =>
    rw [frameBits, List.flatMap_cons, List.length_append, List.length_cons]
    have h8 := Lfsr.length_bits b
    change _ + (frameBits m).length = _
    omega

theorem crcBit_eq : crcBit = Lfsr.step modbusPoly := by
  funext c
  have hand : c &&& 0x0001 ≠ 0 ↔ c.getLsbD 0 = true := by
    have h1 : c &&& 0x0001 = (BitVec.ofBool (c.getLsbD 0)).setWidth 16 :=
      BitVec.and_one_eq_setWidth_ofBool_getLsbD
    rw [h1]
    cases c.getLsbD 0 <;> decide
  unfold crcBit Lfsr.step
  rw [if_congr hand rfl rfl]
  rfl

/-- a byte put into the register at once, and eight bits one after the other -/
theorem crcByte_eq (c : Word) (b : Byte) : crcByte c b = feedAll modbusPoly c (Lfsr.bits b) := by
  have hpack : (Lfsr.pack (Lfsr.bits b) : Word) = b.setWidth 16 := by
    apply BitVec.eq_of_getLsbD_eq
    intro i hi
    rw [Lfsr.getLsbD_pack, BitVec.getLsbD_setWidth, Lfsr.getD_bits]
  have h8 := Lfsr.length_bits b
  rw [Lfsr.feedAll_pack modbusPoly (by omega), h8, hpack, crcByte, crcBit_eq]

theorem crcReg_append (m m' : List Byte) : crcReg (m ++ m') = m'.foldl crcByte (crcReg m) :=
  List.foldl_append

theorem foldl_crcByte (c : Word) (m : List Byte) :
    m.foldl crcByte c = feedAll modbusPoly c (frameBits m) := by
  induction m generalizing c with
  | nil => rfl
  | cons b m ih =>
    rw [List.foldl_cons, ih, crcByte_eq, ← Lfsr.feedAll_append]
    rfl

theorem crcReg_eq (m : List Byte) : crcReg m = feedAll modbusPoly 0xFFFF (frameBits m) :=
  foldl_crcByte _ m

theorem msb_modbusPoly : modbusPoly.msb = true := by decide

/-! ## the byte swap -/

theorem crc16_eq (m : List Byte) :
    crc16ModbusRTU m = word (crcLo (crcReg m)) (crcHi (crcReg m)) := by
  generalize hr : crcReg m = r
  unfold crc16ModbusRTU
  rw [hr]
  have hhi : ∀ i < 16, (0xff00 : Word).getLsbD i = decide (8 ≤ i) := by decide
  have hlo : ∀ i < 16, (0x00ff : Word).getLsbD i = decide (i < 8) := by decide
  apply BitVec.eq_of_getLsbD_eq
  intro i hi
  simp only [word, crcHi, crcLo, BitVec.getLsbD_or, BitVec.getLsbD_and, BitVec.getLsbD_shiftLeft,
    BitVec.getLsbD_ushiftRight, BitVec.getLsbD_setWidth, hhi i hi, hlo i hi, hi]
  by_cases h : i < 8
  · simp [h, show ¬ 8 ≤ i by omega]
  · simp [h, show 8 ≤ i by omega, show i - 8 < 8 by omega, show i - 8 < 16 by omega]

theorem crcHi_crc16 (m : List Byte) : crcHi (crc16ModbusRTU m) = crcLo (crcReg m) := by
  rw [crc16_eq, crcHi_word]

theorem crcLo_crc16 (m : List Byte) : crcLo (crc16ModbusRTU m) = crcHi (crcReg m) := by
  rw [crc16_eq, crcLo_word]

theorem crc16_eq_zero_iff (m : List Byte) : crc16ModbusRTU m = 0 ↔ crcReg m = 0#16 := by
  constructor
  · intro h
    have hhi := crcHi_crc16 m
    have hlo := crcLo_crc16 m
    rw [h] at hhi hlo
    rw [← word_crcHi_crcLo (crcReg m), ← hhi, ← hlo]
    decide
  · intro h
    rw [crc16_eq, h]
    decide

/-! ## the residue -/

theorem crcReg_two (m : List Byte) (a b : Byte) :
    crcReg (m ++ [a, b]) = (Lfsr.step modbusPoly)^[16] (crcReg m ^^^ word b a) := by
  have h16 : (frameBits [a, b]).length = 16 := length_frameBits _
  have hpack : (Lfsr.pack (frameBits [a, b]) : Word) = word b a := by
    apply BitVec.eq_of_getLsbD_eq
    intro i hi
    have happ : frameBits [a, b] = Lfsr.bits a ++ Lfsr.bits b := by
      simp only [frameBits, List.flatMap_cons, List.flatMap_nil, List.append_nil]
    have h8 := Lfsr.length_bits a
    rw [Lfsr.getLsbD_pack, happ]
    simp only [word, BitVec.getLsbD_or, BitVec.getLsbD_shiftLeft, BitVec.getLsbD_setWidth]
    by_cases h : i < 8
    · rw [List.getD_append _ _ _ _ (by omega), Lfsr.getD_bits]
      simp [hi, h]
    · rw [List.getD_append_right _ _ _ _ (by omega), h8, Lfsr.getD_bits,
        BitVec.getLsbD_of_ge a i (by omega)]
      simp [hi, h]
      omega
  rw [crcReg_append, foldl_crcByte, Lfsr.feedAll_pack modbusPoly (by omega), h16, hpack]

/-- the register is empty exactly behind the bytes that it held -/
theorem crcReg_eq_zero_iff (m : List Byte) (a b : Byte) :
    crcReg (m ++ [a, b]) = 0#16 ↔ word b a = crcReg m := by
  rw [crcReg_two, Lfsr.iterate_eq_zero_iff msb_modbusPoly, BitVec.xor_eq_zero_iff, eq_comm]

theorem word_crc16_iff (m : List Byte) (a b : Byte) :
    word a b = crc16ModbusRTU m ↔ word b a = crcReg m := by
  rw [word_eq_iff, word_eq_iff, crcHi_crc16, crcLo_crc16]
  exact and_comm

/-! ## the definition of Modbus RTU -/

/-- a message and its checksum: the register starts with ones, takes the bits of the message, the
lowest of a byte first, and its lower byte is sent first -/
def modbusFrame (m : List Byte) : List Byte :=
  let r : Word := feedAll modbusPoly 0xFFFF (frameBits m)
  m ++ [r.setWidth 8, (r >>> 8).setWidth 8]

theorem append_crc16 (m : List Byte) :
    m ++ [crcHi (crc16ModbusRTU m), crcLo (crc16ModbusRTU m)] = modbusFrame m := by
  rw [crcHi_crc16, crcLo_crc16, crcReg_eq]
  rfl

theorem word_iff_modbusFrame (m : List Byte) (a b : Byte) :
    word a b = crc16ModbusRTU m ↔ m ++ [a, b] = modbusFrame m := by
  rw [word_eq_iff, ← append_crc16, List.append_cancel_left_eq, List.cons.injEq, List.cons.injEq]
  tauto

theorem setWidth_inj (a b : Byte) : a.setWidth 16 = b.setWidth 16 ↔ a = b := by
  constructor
  · intro h
    have h' := congrArg (BitVec.setWidth 8) h
    rwa [BitVec.setWidth_setWidth_of_le _ (by decide), BitVec.setWidth_setWidth_of_le _ (by decide),
      BitVec.setWidth_eq, BitVec.setWidth_eq] at h'
  · rintro rfl
    rfl

theorem setWidth_crcHi (w : Word) : (crcHi w).setWidth 16 = w >>> 8 := by
  apply BitVec.eq_of_getLsbD_eq
  intro i hi
  simp only [crcHi, BitVec.getLsbD_setWidth, BitVec.getLsbD_ushiftRight]
  by_cases h : i < 8
  · simp [h, hi]
  · simp [h, hi]
    exact BitVec.getLsbD_of_ge _ _ (by omega)

theorem setWidth_crcLo (w : Word) : (crcLo w).setWidth 16 = w &&& 0xff := by
  have hlo : ∀ i < 16, (0xff : Word).getLsbD i = decide (i < 8) := by decide
  apply BitVec.eq_of_getLsbD_eq
  intro i hi
  simp only [crcLo, BitVec.getLsbD_setWidth, BitVec.getLsbD_and, hlo i hi, hi, decide_true,
    Bool.true_and]
  exact Bool.and_comm _ _

theorem take_two_last {α : Type} (l : List α) (d : α) (h : 2 ≤ l.length) :
    l = l.take (l.length - 2) ++ [l.getD (l.length - 2) d, l.getD (l.length - 1) d] := by
  have h1 : l.length - 2 < l.length := by omega
  have h2 : l.length - 2 + 1 < l.length := by omega
  have h3 : l.length - 2 + 1 + 1 = l.length := by omega
  have e : l.length - 1 = l.length - 2 + 1 := by omega
  conv_lhs => rw [← List.take_append_drop (l.length - 2) l]
  rw [List.drop_eq_getElem_cons h1, List.drop_eq_getElem_cons h2, h3, List.drop_length, e,
    List.getD_eq_getElem _ _ h1, List.getD_eq_getElem _ _ h2]

theorem Temp.take_checksum (q : Query) (temp : Temp) (h2 : q.n - 2 < 10) (h1 : q.n - 1 < 10) :
    temp.take q.n = temp.take (q.n - 2) ++ [temp ⟨q.n - 2, h2⟩, temp ⟨q.n - 1, h1⟩] := by
  have h5 := q.five_le
  have h10 := q.le_ten
  have hlen := Temp.length_take temp h10
  have hget : ∀ k (hk : k < q.n), (temp.take q.n).getD k 0 = temp ⟨k, by omega⟩ := by
    intro k hk
    rw [List.getD_eq_getElem _ _ (by omega)]
    simp only [Temp.take, List.getElem_take, List.getElem_ofFn]
  have h := take_two_last (temp.take q.n) 0 (by omega)
  rw [hlen, hget _ (by omega), hget _ (by omega)] at h
  rw [h]
  congr 1
  unfold Temp.take
  rw [List.take_take, Nat.min_eq_left (by omega)]

theorem crcTest_iff_modbusFrame (q : Query) (temp : Temp) :
    crcTest q temp = true ↔ temp.take q.n = modbusFrame (temp.take (q.n - 2)) := by
  unfold crcTest
  rw [beq_iff_eq, word_iff_modbusFrame, ← Temp.take_checksum]

theorem theCMD_modbusFrame (q : Query) (byh : ByhM) :
    theCMD q byh = modbusFrame ((theCMD q byh).take 6) := by
  unfold theCMD
  exact append_crc16 _

/-- **Residue law.**  A message with two more bytes has the checksum zero exactly if they are its
checksum, the high byte of the returned value first; what the get functions send and what they
accept are the frames that Modbus RTU defines. -/
theorem residue_law :
    (∀ (m : List Byte) (a b : Byte), crc16ModbusRTU (m ++ [a, b]) = 0 ↔
      a.setWidth 16 = crc16ModbusRTU m >>> 8 ∧ b.setWidth 16 = crc16ModbusRTU m &&& 0xff) ∧
    (∀ m : List Byte,
      m ++ [crcHi (crc16ModbusRTU m), crcLo (crc16ModbusRTU m)] = modbusFrame m) ∧
    (∀ (m : List Byte) (a b : Byte),
      word a b = crc16ModbusRTU m ↔ m ++ [a, b] = modbusFrame m) ∧
    (∀ (q : Query) (byh : ByhM), theCMD q byh = modbusFrame ((theCMD q byh).take 6)) ∧
    ∀ (q : Query) (temp : Temp),
      crcTest q temp = true ↔ temp.take q.n = modbusFrame (temp.take (q.n - 2)) := by
  refine ⟨fun m a b => ?_, append_crc16, word_iff_modbusFrame, theCMD_modbusFrame,
    crcTest_iff_modbusFrame⟩
  rw [crc16_eq_zero_iff, crcReg_eq_zero_iff, ← word_crc16_iff, word_eq_iff, ← setWidth_crcHi,
    ← setWidth_crcLo, setWidth_inj, setWidth_inj]

/-! ## errors -/

/-- the last two bytes are the checksum of the others -/
def ValidFrame (f : List Byte) : Prop := 2 ≤ f.length ∧ CrcRight f.length f

instance (f : List Byte) : Decidable (ValidFrame f) := inferInstanceAs (Decidable (_ ∧ _))

theorem validFrame_iff (f : List Byte) (h : 2 ≤ f.length) : ValidFrame f ↔ crcReg f = 0#16 := by
  unfold ValidFrame CrcRight
  conv_rhs => rw [take_two_last f 0 h]
  rw [crcReg_eq_zero_iff, ← word_crc16_iff]
  exact and_iff_right h

theorem frameBits_xor (f e : List Byte) (h : f.length = e.length) :
    frameBits (List.zipWith (· ^^^ ·) f e) =
      List.zipWith (· ^^ ·) (frameBits f) (frameBits e) := by
  induction f generalizing e with
  | nil =>
    rw [List.eq_nil_of_length_eq_zero h.symm]
    rfl
  | cons a f ih =>
    cases e with
    | nil => cases h
    | cons b e =>
      have hab : (Lfsr.bits a).length = (Lfsr.bits b).length := by
        rw [Lfsr.length_bits, Lfsr.length_bits]
      have hcons : ∀ (c : Byte) m, frameBits (c :: m) = Lfsr.bits c ++ frameBits m :=
        fun _ _ => rfl
      rw [List.zipWith_cons_cons, hcons, hcons, hcons, List.zipWith_append hab, Lfsr.bits_xor,
        ih e (Nat.succ.inj h)]

/-- what the errors leave in the register does not depend on the frame -/
theorem crcReg_xor (f e : List Byte) (h : f.length = e.length) :
    crcReg (List.zipWith (· ^^^ ·) f e) =
      crcReg f ^^^ feedAll modbusPoly 0#16 (frameBits e) := by
  rw [crcReg_eq, crcReg_eq, frameBits_xor f e h, ← Lfsr.feedAll_xor _ _ _ _ _ (by
    rw [length_frameBits, length_frameBits, h]), BitVec.xor_zero]

theorem prime_factor_period {q : Nat} (hq : q.Prime) (h : q ∣ 217 * 151) :
    q = 7 ∨ q = 31 ∨ q = 151 := by
  have hf : 217 * 151 = 7 * 31 * 151 := rfl
  rw [hf] at h
  rcases (Nat.Prime.dvd_mul hq).mp h with h | h
  · rcases (Nat.Prime.dvd_mul hq).mp h with h | h
    · exact Or.inl ((Nat.prime_dvd_prime_iff_eq hq (by norm_num)).mp h)
    · exact Or.inr (Or.inl ((Nat.prime_dvd_prime_iff_eq hq (by norm_num)).mp h))
  · exact Or.inr (Or.inr ((Nat.prime_dvd_prime_iff_eq hq (by norm_num)).mp h))

/-- the register comes back to its lowest bit after 32767 shifts, and not before -/
theorem minimalPeriod_modbusPoly :
    Function.minimalPeriod (Lfsr.step modbusPoly) (Lfsr.bit true) = 32767 := by
  have hval : ∀ n m : Nat, (Lfsr.step modbusPoly)^[n * m] (Lfsr.bit true) = Lfsr.bit true ↔
      Lfsr.walks 0xa001 n m 1 = 1 := by
    intro n m
    rw [← BitVec.toNat_inj, Lfsr.toNat_iterate_mul]
    rfl
  apply Lfsr.minimalPeriod_eq_of_prime (n := 217 * 151)
  · exact (hval 217 151).mpr (by decide +kernel)
  · intro q hq hdvd hper
    rcases prime_factor_period hq hdvd with rfl | rfl | rfl
    · exact absurd ((hval 31 151).mp hper) (by decide +kernel)
    · exact absurd ((hval 7 151).mp hper) (by decide +kernel)
    · exact absurd ((hval 7 31).mp hper) (by decide +kernel)

/-- error patterns that the checksum finds: an odd number of wrong bits, wrong bits among 16
consecutive ones, two wrong bits less than 32767 apart -/
def Detectable (e : List Byte) : Prop :=
  (frameBits e).count true % 2 = 1 ∨ Lfsr.Burst 16 (frameBits e) ∨
    Lfsr.TwoBits 32767 (frameBits e)

theorem feedAll_detectable {e : List Byte} (h1 : true ∈ frameBits e) (h : Detectable e) :
    feedAll modbusPoly 0#16 (frameBits e) ≠ 0#16 := by
  rcases h with h | h | h
  · exact Lfsr.feedAll_ne_zero_of_odd modbusPoly (by decide) (by decide) h
  · exact Lfsr.feedAll_ne_zero_of_burst modbusPoly msb_modbusPoly h1 h
  · refine Lfsr.feedAll_ne_zero_of_two modbusPoly msb_modbusPoly (fun d hd hlt hper => ?_) h
    have hle := Function.IsPeriodicPt.minimalPeriod_le hd hper
    rw [minimalPeriod_modbusPoly] at hle
    omega

theorem exists_bit {e : List Byte} (h : ∃ b ∈ e, b ≠ 0) : true ∈ frameBits e := by
  obtain ⟨b, hb, hb0⟩ := h
  by_contra hn
  refine hb0 (BitVec.eq_of_getLsbD_eq fun i hi => ?_)
  rw [show (0 : Byte).getLsbD i = false from BitVec.getLsbD_zero, Bool.eq_false_iff]
  intro ht
  refine hn (List.mem_flatMap.mpr ⟨b, hb, ?_⟩)
  exact List.mem_ofFn.mpr ⟨⟨i, hi⟩, ht⟩

/-- **Detected errors.**  A valid frame of any length with wrong bits in one of the patterns is not
valid, and a get function that receives it returns an error and stores nothing. -/
theorem damaged_rejected (f e : List Byte) (hf : ValidFrame f) (hlen : e.length = f.length)
    (hne : ∃ b ∈ e, b ≠ 0) (he : Detectable e) :
    ¬ ValidFrame (List.zipWith (· ^^^ ·) f e) ∧
      ∀ (g : Get), f.length = g.query.n → ∀ (temp : Temp) (byh : ByhM),
        g.call (List.zipWith (· ^^^ ·) f e) temp byh = (rtError, byh) := by
  have hlen' : (List.zipWith (· ^^^ ·) f e).length = f.length := by
    rw [List.length_zipWith, hlen, Nat.min_self]
  have hbad : ¬ ValidFrame (List.zipWith (· ^^^ ·) f e) := by
    intro hv
    rw [validFrame_iff _ hv.1, crcReg_xor f e hlen.symm, (validFrame_iff f hf.1).mp hf,
      BitVec.zero_xor] at hv
    exact feedAll_detectable (exists_bit hne) he hv
  refine ⟨hbad, fun g hg temp byh => ?_⟩
  have hn : (List.zipWith (· ^^^ ·) f e).length = g.query.n := hlen'.trans hg
  have htest : crcTest g.query (rtDeviceRead (List.zipWith (· ^^^ ·) f e) temp) ≠ true := by
    intro ht
    refine hbad ⟨by rw [hlen']; exact hf.1, ?_⟩
    rw [hn]
    exact (crcTest_full g.query _ hn temp).mp ht
  rw [g.call_eq]
  exact if_neg htest

/-- one wrong bit in the reply of the slave `0x0b` -/
theorem damaged_rejected_reply :
    ¬ ValidFrame (List.zipWith (· ^^^ ·) replyFrame [0, 0, 0, 0, 0x10, 0, 0, 0, 0]) ∧
      ∀ (g : Get), 9 = g.query.n → ∀ (temp : Temp) (byh : ByhM),
        g.call (List.zipWith (· ^^^ ·) replyFrame [0, 0, 0, 0, 0x10, 0, 0, 0, 0]) temp byh =
          (rtError, byh) :=
  damaged_rejected replyFrame [0, 0, 0, 0, 0x10, 0, 0, 0, 0] (by decide +kernel) rfl (by decide)
    (Or.inl (by decide))

end ENV

import Enviroment.Lib.Trace
import Enviroment.Sensor.Reply

/-!
# The serial line of the sensor, over many calls

`uart3` is a FIFO that nobody flushes.  The sensor answers every request with one complete reply;
its bytes travel in order, and at each read the environment decides how many bytes are still under
way (`hold`).  A reply is LATE if any byte is under way at the read of the call that asked.

* `callStep`               one call of the rotation humiture, noise, PM;
* `Attributed`             a call that returns `RT_EOK` stored the registers of its own reply;
* `call_reply`             a call that finds exactly its own reply accepts and stores it;
* `attributed_iff`         a choice of late replies is harmless exactly if it has none;
* `late_pm_feeds_humiture` after one late PM reply every later humiture call stores the PM values
                           of the cycle before.
-/

namespace ENV

/-! ## replies -/

/-- the words of a big-endian byte string -/
def words : List Byte → List Word
  | hi :: lo :: l => word hi lo :: words l
  | _ => []

/-- a complete reply: the body and its checksum -/
def replyBytes (body : List Byte) : List Byte :=
  body ++ [crcHi (crc16ModbusRTU body), crcLo (crc16ModbusRTU body)]

/-- the registers in the body of a reply, after address, function code and byte count -/
def registers (body : List Byte) : List Word := words (body.drop 3)

theorem length_replyBytes (body : List Byte) : (replyBytes body).length = body.length + 2 := by
  simp [replyBytes]

theorem crcRight_replyBytes (body : List Byte) :
    CrcRight (body.length + 2) (replyBytes body) := by
  unfold CrcRight
  have e1 : (replyBytes body).getD (body.length + 2 - 2) 0 = crcHi (crc16ModbusRTU body) := by
    simp [replyBytes]
  have e2 : (replyBytes body).getD (body.length + 2 - 1) 0 = crcLo (crc16ModbusRTU body) := by
    simp [replyBytes]
  have e3 : (replyBytes body).take (body.length + 2 - 2) = body := by
    simp [replyBytes]
  rw [e1, e2, e3, word_crcHi_crcLo]

theorem values_save (g : Get) (body : List Byte) (hb : body.length + 2 = g.query.n) (temp : Temp)
    (byh : ByhM) :
    g.values (g.save (rtDeviceRead (replyBytes body) temp) byh) = registers body := by
  cases g with
  | humiture =>
    match body, hb with
    | [_, _, _, _, _, _, _], _ => rfl
  | noise =>
    match body, hb with
    | [_, _, _, _, _], _ => rfl
  | pm =>
    match body, hb with
    | [_, _, _, _, _, _, _], _ => rfl

/-- **A call that finds its reply accepts it and stores its registers.** -/
theorem call_reply (g : Get) (body : List Byte) (hb : body.length + 2 = g.query.n) (temp : Temp)
    (byh : ByhM) :
    (g.call (replyBytes body) temp byh).1 = rtEok ∧
      g.values (g.call (replyBytes body) temp byh).2 = registers body := by
  have hlen : (replyBytes body).length = g.query.n := by rw [length_replyBytes, hb]
  have ht : crcTest g.query (rtDeviceRead (replyBytes body) temp) = true := by
    rw [crcTest_full _ _ hlen, ← hb]
    exact crcRight_replyBytes body
  rw [g.call_eq]
  simp only [byhMGet, ht, ↓reduceIte]
  exact ⟨trivial, values_save g body hb temp byh⟩

/-! ## the line -/

/-- the calls of the sensor thread rotate -/
def Get.succ : Get → Get
  | .humiture => .noise
  | .noise => .pm
  | .pm => .humiture

structure Line where
  next : Get
  byh : ByhM
  /-- received by `uart3`, not read yet -/
  rx : List Byte
  /-- sent by the sensor, still under way -/
  air : List Byte
  /-- requests written so far -/
  tx : List (List Byte)
  /-- what the last call returned -/
  ret : RtErr

/-- what the environment decides about one call -/
structure CallIn where
  /-- the reply of the sensor to this request, without checksum -/
  body : List Byte
  /-- bytes still under way when the call reads -/
  hold : Nat
  /-- what the local buffer held before -/
  temp : Temp

def lineInit (byh : ByhM) : Line := ⟨.humiture, byh, [], [], [], rtEok⟩

/-- the request is written, the sensor answers, bytes arrive, the call reads and checks -/
def callStep (s : Line) (a : CallIn) : Option Line :=
  if a.body.length + 2 = s.next.query.n then
    let air := s.air ++ replyBytes a.body
    let rx := s.rx ++ air.take (air.length - a.hold)
    let n := s.next.query.n
    let r := s.next.call (rx.take n) a.temp s.byh
    some ⟨s.next.succ, r.2, rx.drop n, air.drop (air.length - a.hold),
      s.tx ++ [theCMD s.next.query s.byh], r.1⟩
  else none

/-- the reply to this call is not complete when the call reads -/
def CallIn.late (a : CallIn) : Bool := a.hold != 0

/-- `RT_EOK` means: the values stored are the registers of the reply to this very request -/
def Attributed (s : Line) (a : CallIn) (t : Line) : Prop :=
  t.ret = rtEok → s.next.values t.byh = registers a.body

/-- no byte waits to be read or to arrive -/
def Line.Quiet (s : Line) : Prop := s.rx = [] ∧ s.air = []

theorem callStep_some {s t : Line} {a : CallIn} (h : callStep s a = some t) :
    a.body.length + 2 = s.next.query.n := by
  unfold callStep at h
  split at h
  next hl => exact hl
  next => cases h

/-- on a quiet line a reply that is not late is the whole of what the call reads -/
theorem callStep_intime (s : Line) (a : CallIn) (hq : s.Quiet)
    (hl : a.body.length + 2 = s.next.query.n) (hi : a.late = false) :
    callStep s a = some ⟨s.next.succ, (s.next.call (replyBytes a.body) a.temp s.byh).2, [], [],
      s.tx ++ [theCMD s.next.query s.byh],
      (s.next.call (replyBytes a.body) a.temp s.byh).1⟩ := by
  obtain ⟨hrx, hair⟩ := hq
  have h0 : a.hold = 0 := by simpa [CallIn.late] using hi
  have hlen : (replyBytes a.body).length = s.next.query.n := by rw [length_replyBytes, hl]
  unfold callStep
  rw [if_pos hl]
  simp only [hrx, hair, h0, List.nil_append, Nat.sub_zero, List.take_length, List.drop_length]
  rw [← hlen, List.take_length, List.drop_length]

/-- one call in time on a quiet line: attributed, and the line is quiet again -/
theorem intime_step (s : Line) (a : CallIn) (t : Line) (hq : s.Quiet) (h : callStep s a = some t)
    (hi : a.late = false) : Attributed s a t ∧ t.Quiet := by
  have hl := callStep_some h
  rw [callStep_intime s a hq hl hi] at h
  obtain rfl := Option.some.inj h
  refine ⟨fun _ => ?_, rfl, rfl⟩
  exact (call_reply s.next a.body hl a.temp s.byh).2

theorem attributed_of_intime (s : Line) (hq : s.Quiet) (as : List CallIn)
    (hi : ∀ a ∈ as, a.late = false) : Trace.Along callStep Attributed s as := by
  induction as generalizing s with
  | nil => trivial
  | cons a as ih =>
    intro t ht
    obtain ⟨hp, hq'⟩ := intime_step s a t hq ht (hi a List.mem_cons_self)
    exact ⟨hp, ih t hq' fun b hb => hi b (List.mem_cons_of_mem _ hb)⟩

/-! ## one late reply -/

/-- a body of the length that `g` asks for, all bytes equal -/
def flatBody (g : Get) (b : Byte) : List Byte := List.replicate (g.query.n - 2) b

theorem length_flatBody (g : Get) (b : Byte) : (flatBody g b).length + 2 = g.query.n := by
  have := g.query.five_le
  simp only [flatBody, List.length_replicate]
  omega

theorem registers_flatBody_ne (g : Get) : registers (flatBody g 1) ≠ registers (flatBody g 0) := by
  cases g <;> decide +kernel

/-- an input that makes a late reply go wrong: the reply holds zeros, the stack holds an old reply
with other registers -/
def staleIn (g : Get) (late : Bool) : CallIn :=
  ⟨flatBody g 0, if late then g.query.n else 0,
    rtDeviceRead (replyBytes (flatBody g 1)) fun _ => 0⟩

def staleRun : Get → List Bool → List CallIn
  | _, [] => []
  | g, b :: bs => staleIn g b :: staleRun g.succ bs

theorem staleIn_late (g : Get) (b : Bool) : (staleIn g b).late = b := by
  have h5 := g.query.five_le
  have hn : (g.query.n != 0) = true := by
    rw [bne_iff_ne]
    omega
  cases b with
  | false => rfl
  | true => exact hn

theorem staleRun_late (g : Get) (bs : List Bool) : (staleRun g bs).map CallIn.late = bs := by
  induction bs generalizing g with
  | nil => rfl
  | cons b bs ih => rw [staleRun, List.map_cons, ih, staleIn_late]

/-- a late reply on a quiet line: nothing is read, the old frame on the stack is accepted -/
theorem late_step (s : Line) (hq : s.Quiet) :
    ∃ t, callStep s (staleIn s.next true) = some t ∧ ¬ Attributed s (staleIn s.next true) t := by
  have hl : (flatBody s.next 0).length + 2 = s.next.query.n := length_flatBody s.next 0
  have hlen : (replyBytes (flatBody s.next 0)).length = s.next.query.n := by
    rw [length_replyBytes, hl]
  refine ⟨_, if_pos hl, fun hat => ?_⟩
  obtain ⟨hrx, hair⟩ := hq
  have hread : s.rx ++ (s.air ++ replyBytes (staleIn s.next true).body).take
      ((s.air ++ replyBytes (staleIn s.next true).body).length - (staleIn s.next true).hold)
        = [] := by
    show s.rx ++ (s.air ++ replyBytes (flatBody s.next 0)).take
      ((s.air ++ replyBytes (flatBody s.next 0)).length - s.next.query.n) = []
    rw [hrx, hair, List.nil_append, List.nil_append, hlen, Nat.sub_self, List.take_zero]
  have hcall : s.next.call [] (staleIn s.next true).temp s.byh
      = s.next.call (replyBytes (flatBody s.next 1)) (fun _ => 0) s.byh := by
    rw [s.next.call_eq]
    rfl
  have hr := call_reply s.next (flatBody s.next 1) (length_flatBody _ _) (fun _ => 0) s.byh
  simp only [Attributed, hread, List.take_nil, hcall] at hat
  exact registers_flatBody_ne s.next (hr.2.symm.trans (hat hr.1))

theorem attributed_staleRun (bs : List Bool) (s : Line) (hq : s.Quiet)
    (h : Trace.Along callStep Attributed s (staleRun s.next bs)) : ∀ b ∈ bs, b = false := by
  induction bs generalizing s with
  | nil => intro b hb; cases hb
  | cons b bs ih =>
    cases b with
    | true =>
      obtain ⟨t, ht, hn⟩ := late_step s hq
      exact absurd (h t ht).1 hn
    | false =>
      have hl : (flatBody s.next 0).length + 2 = s.next.query.n := length_flatBody s.next 0
      have hstep := callStep_intime s (staleIn s.next false) hq hl rfl
      intro b' hb'
      rcases List.mem_cons.mp hb' with rfl | hmem
      · rfl
      · exact ih _ ⟨rfl, rfl⟩ (h _ hstep).2 b' hmem

/-- **A choice of late replies is harmless exactly if no reply is late**: otherwise some replies and
some old content of the buffer make a call store values that are not those of its own reply. -/
theorem attributed_iff (byh : ByhM) (late : List Bool) :
    (∀ as, as.map CallIn.late = late → Trace.Along callStep Attributed (lineInit byh) as) ↔
      ∀ b ∈ late, b = false := by
  constructor
  · intro h
    exact attributed_staleRun late (lineInit byh) ⟨rfl, rfl⟩ (h _ (staleRun_late _ _))
  · intro h as has
    refine attributed_of_intime _ ⟨rfl, rfl⟩ as fun a ha => h _ ?_
    rw [← has]
    exact List.mem_map_of_mem ha

/-- humiture and noise in time, the PM reply late, the next humiture in time -/
def latePMRun : List CallIn :=
  [⟨[0x0b, 0x03, 0x04, 0x02, 0x58, 0x00, 0xfa], 0, fun _ => 0⟩,
    ⟨[0x0b, 0x03, 0x02, 0x01, 0xc2], 0, fun _ => 0⟩,
    ⟨[0x0b, 0x03, 0x04, 0x00, 0x19, 0x00, 0x28], 9, fun _ => 0⟩,
    ⟨[0x0b, 0x03, 0x04, 0x02, 0x58, 0x00, 0xfa], 0, fun _ => 0⟩]

/-- the second humiture call returns `RT_EOK` and stores PM2.5 as humidity, PM10 as temperature -/
theorem latePMRun_misfed : ((Trace.run callStep (lineInit byhDataInit) latePMRun).map fun t =>
    (t.ret, t.byh.humidity_x10, t.byh.temperature_x10)) = some (rtEok, 25, 40) := by
  decide +kernel

/-- one late reply is enough -/
theorem attributed_fails :
    ¬ Trace.Along callStep Attributed (lineInit byhDataInit) latePMRun := by
  intro h
  have hlast := (Trace.along_iff (lineInit byhDataInit) latePMRun).mp h (latePMRun.take 3)
    (latePMRun.getD 3 ⟨[], 0, fun _ => 0⟩) [] rfl _ _ rfl rfl
  exact absurd (hlast (by decide +kernel)) (by decide +kernel)

/-! ## one late PM reply is never made up for -/

/-- nine bytes are ahead of every request; before a humiture request they are a PM reply -/
def Shifted (s : Line) : Prop :=
  (s.rx ++ s.air).length = 9 ∧ (s.next = .humiture → ∃ p, s.rx ++ s.air = replyBytes p)

/-- a humiture call on a shifted line takes the PM reply that is ahead of its own -/
def MisfedByPM (s : Line) (_ : CallIn) (t : Line) : Prop :=
  s.next = .humiture → ∃ p, s.rx ++ s.air = replyBytes p ∧ t.ret = rtEok ∧
    Get.humiture.values t.byh = registers p

theorem callStep_all (s t : Line) (a : CallIn) (h : callStep s a = some t) (hi : a.late = false) :
    t.next = s.next.succ ∧ t.air = [] ∧
      t.rx = (s.rx ++ s.air ++ replyBytes a.body).drop s.next.query.n ∧
      (t.ret, t.byh) = s.next.call ((s.rx ++ s.air ++ replyBytes a.body).take s.next.query.n)
        a.temp s.byh := by
  have h0 : a.hold = 0 := by simpa [CallIn.late] using hi
  unfold callStep at h
  rw [if_pos (callStep_some h)] at h
  obtain rfl := Option.some.inj h
  simp only [h0, Nat.sub_zero, List.take_length, List.drop_length, List.append_assoc,
    Prod.mk.eta, and_self]

theorem shifted_step (s t : Line) (a : CallIn) (hs : Shifted s) (h : callStep s a = some t)
    (hi : a.late = false) : MisfedByPM s a t ∧ Shifted t := by
  obtain ⟨hnext, hair, hrx, hcall⟩ := callStep_all s t a h hi
  obtain ⟨h9, hp⟩ := hs
  have hl := callStep_some h
  constructor
  · intro hg
    obtain ⟨p, hp⟩ := hp hg
    have hlp : p.length + 2 = Get.humiture.query.n := by
      rw [← length_replyBytes, ← hp, h9]
      rfl
    have htake : (s.rx ++ s.air ++ replyBytes a.body).take s.next.query.n = replyBytes p := by
      rw [hg, ← hlp, ← length_replyBytes, ← hp]
      exact List.take_left
    rw [htake, hg] at hcall
    have hr := call_reply .humiture p hlp a.temp s.byh
    rw [← hcall] at hr
    exact ⟨p, hp, hr.1, hr.2⟩
  · unfold Shifted
    rw [hair, List.append_nil, hrx]
    constructor
    · rw [List.length_drop, List.length_append, h9, length_replyBytes, hl]
      omega
    · -- only the PM call precedes a humiture call, and it takes nine bytes
      intro hg
      have hpm : s.next = .pm := by
        rw [hnext] at hg
        cases hn : s.next with
        | humiture => rw [hn] at hg; cases hg
        | noise => rw [hn] at hg; cases hg
        | pm => rfl
      refine ⟨a.body, ?_⟩
      rw [hpm]
      show (s.rx ++ s.air ++ replyBytes a.body).drop 9 = _
      rw [← h9]
      exact List.drop_left

/-- **After one late PM reply the station never recovers**: with every later reply in time, every
humiture call returns `RT_EOK` and stores the PM values of the cycle before. -/
theorem late_pm_feeds_humiture (s : Line) (hs : Shifted s) (as : List CallIn)
    (hi : ∀ a ∈ as, a.late = false) : Trace.Along callStep MisfedByPM s as := by
  induction as generalizing s with
  | nil => trivial
  | cons a as ih =>
    intro t ht
    obtain ⟨hp, hs'⟩ := shifted_step s t a hs ht (hi a List.mem_cons_self)
    exact ⟨hp, ih t hs' fun b hb => hi b (List.mem_cons_of_mem _ hb)⟩

end ENV

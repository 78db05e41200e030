import Enviroment.Sensor.Line

/-!
# What the get functions store in `BYH_M_t`

* `registers_save`    the stored words are the registers in the buffer;
* `Keeps`             two data blocks agree outside the fields of a get function;
* `get_cases`         a call either fails and stores nothing, or stores its registers;
* `byhMReply`         the reply with given registers, and what a call makes of it;
* `keeps_calls`       what no sequence of calls changes;
* `get_atomic`        atomic and exact update.
-/

namespace ENV

/-- the command and the fields of the other get functions are the same -/
structure Keeps (g : Get) (byh byh' : ByhM) : Prop where
  cmd : byh'.cmd = byh.cmd
  others : ∀ g', g' ≠ g → g'.values byh' = g'.values byh

theorem Keeps.refl (g : Get) (byh : ByhM) : Keeps g byh byh := ⟨rfl, fun _ _ => rfl⟩

theorem keeps_save (g : Get) (temp : Temp) (byh : ByhM) : Keeps g byh (g.save temp byh) := by
  constructor
  · cases g <;> rfl
  · intro g' hne
    cases g <;> cases g' <;> first | rfl | exact absurd rfl hne

theorem registers_save (g : Get) (temp : Temp) (byh : ByhM) :
    (g.values (g.save temp byh)).map BitVec.toInt = g.registers temp := by
  cases g <;> simp only [Get.values, Get.save, Get.registers, saveHumiture, saveNoise, savePM,
    List.map_cons, List.map_nil, toInt_word]

theorem get_cases (g : Get) (d : List Byte) (temp : Temp) (byh : ByhM) :
    g.call d temp byh = (rtError, byh) ∨
      g.call d temp byh = (rtEok, g.save (rtDeviceRead d temp) byh) := by
  rw [g.call_eq]
  by_cases h : crcTest g.query (rtDeviceRead d temp) = true
  · exact Or.inr (if_pos h)
  · exact Or.inl (if_neg h)

/-! ## replies -/

/-- the reply with the given registers: three bytes in front, high bytes first -/
def byhMReply (a b c : Byte) (registers : List Word) : List Byte :=
  replyBytes ([a, b, c] ++ registers.flatMap fun v => [crcHi v, crcLo v])

/-- a call that gets the right number of registers stores them -/
theorem call_byhMReply (g : Get) (a b c : Byte) (registers : List Word)
    (hn : 2 * registers.length + 5 = g.query.n) (temp : Temp) (byh : ByhM) :
    g.call (byhMReply a b c registers) temp byh =
      (rtEok, g.save (rtDeviceRead (byhMReply a b c registers) temp) byh) := by
  have hbody : ([a, b, c] ++ registers.flatMap fun v => [crcHi v, crcLo v]).length + 2 =
      g.query.n := by
    rw [List.length_append, List.length_flatMap, ← hn]
    simp
    omega
  have htest : crcTest g.query (rtDeviceRead (byhMReply a b c registers) temp) = true := by
    unfold byhMReply
    rw [crcTest_full _ _ ((length_replyBytes _).trans hbody), ← hbody]
    exact crcRight_replyBytes _
  rw [g.call_eq]
  exact if_pos htest

/-! ## sequences of calls -/

/-- a call: the function, what the line delivers, and the old content of its buffer -/
structure GetCall where
  get : Get
  delivered : List Byte
  temp : Temp

def runCall (byh : ByhM) (c : GetCall) : ByhM := (c.get.call c.delivered c.temp byh).2

def runCalls (byh : ByhM) (cs : List GetCall) : ByhM := cs.foldl runCall byh

theorem keeps_runCall (byh : ByhM) (c : GetCall) : Keeps c.get byh (runCall byh c) := by
  unfold runCall
  rcases get_cases c.get c.delivered c.temp byh with h | h
  · rw [h]
    exact Keeps.refl c.get byh
  · rw [h]
    exact keeps_save c.get _ byh

/-- no sequence of calls changes the command, or a field of a function that is not called -/
theorem keeps_calls (byh : ByhM) (cs : List GetCall) :
    (runCalls byh cs).cmd = byh.cmd ∧
      ∀ g, (∀ c ∈ cs, c.get ≠ g) → g.values (runCalls byh cs) = g.values byh := by
  induction cs generalizing byh with
  | nil => exact ⟨rfl, fun _ _ => rfl⟩
  | cons c cs ih =>
    obtain ⟨hcmd, hval⟩ := ih (runCall byh c)
    have hk := keeps_runCall byh c
    refine ⟨hcmd.trans hk.cmd, fun g hg => ?_⟩
    have h1 := hval g fun c' hc' => hg c' (List.mem_cons_of_mem c hc')
    exact h1.trans (hk.others g (Ne.symm (hg c List.mem_cons_self)))

/-- **Atomic and exact update.**  A call that fails leaves the data block as it was, one that
succeeds changes its own fields to the registers in its buffer and nothing else; a reply is stored
for all values of its registers; and no sequence of calls changes the command or the fields of
other functions. -/
theorem get_atomic :
    (∀ (g : Get) (d : List Byte) (temp : Temp) (byh : ByhM),
      ((g.call d temp byh).1 = rtError ∧ (g.call d temp byh).2 = byh) ∨
      ((g.call d temp byh).1 = rtEok ∧ Keeps g byh (g.call d temp byh).2 ∧
        (g.values (g.call d temp byh).2).map BitVec.toInt =
          g.registers (rtDeviceRead d temp))) ∧
    (∀ (a b c : Byte) (v w : Word) (temp : Temp) (byh : ByhM),
      byhMGetHumiture (byhMReply a b c [v, w]) temp byh =
          (rtEok, { byh with humidity_x10 := v, temperature_x10 := w }) ∧
        byhMGetNoise (byhMReply a b c [v]) temp byh = (rtEok, { byh with noise_x10 := v }) ∧
        byhMGetPMData (byhMReply a b c [v, w]) temp byh =
          (rtEok, { byh with pm2_5 := v, pm10 := w })) ∧
    ∀ (byh : ByhM) (cs : List GetCall), (runCalls byh cs).cmd = byh.cmd ∧
      ∀ g, (∀ c ∈ cs, c.get ≠ g) → g.values (runCalls byh cs) = g.values byh := by
  refine ⟨fun g d temp byh => ?_, fun a b c v w temp byh => ⟨?_, ?_, ?_⟩, keeps_calls⟩
  · rcases get_cases g d temp byh with h | h
    · rw [h]
      exact Or.inl ⟨rfl, rfl⟩
    · rw [h]
      exact Or.inr ⟨rfl, keeps_save g _ byh, registers_save g _ byh⟩
  · refine (call_byhMReply .humiture a b c [v, w] rfl temp byh).trans ?_
    show (rtEok, { byh with
      humidity_x10 := word (crcHi v) (crcLo v), temperature_x10 := word (crcHi w) (crcLo w) }) = _
    rw [word_crcHi_crcLo, word_crcHi_crcLo]
  · refine (call_byhMReply .noise a b c [v] rfl temp byh).trans ?_
    show (rtEok, { byh with noise_x10 := word (crcHi v) (crcLo v) }) = _
    rw [word_crcHi_crcLo]
  · refine (call_byhMReply .pm a b c [v, w] rfl temp byh).trans ?_
    show (rtEok, { byh with
      pm2_5 := word (crcHi v) (crcLo v), pm10 := word (crcHi w) (crcLo w) }) = _
    rw [word_crcHi_crcLo, word_crcHi_crcLo]

end ENV

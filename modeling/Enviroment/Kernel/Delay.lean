import Enviroment.Lib.Poll

/-!
# The delay by the system timer (`drivers/board.c`)

SysTick counts down from `SysTick->LOAD` to zero and starts again.  `rt_hw_us_delay` reads it until
enough ticks have passed; between two readings the thread may be preempted.

* `rtHwUsDelay`           the loop; a run is the sequence of the values it reads;
* `toNat_delta`           what the loop takes for the elapsed ticks: after the counter has started
                          again, one tick too little;
* `rtHwUsDelay_window`    the delay is never too short, and it ends if the readings are not too far
                          apart.
-/

namespace ENV

open Poll

/-- `us_tick`, the ticks of a microsecond -/
def usTickOf (systemCoreClock : BitVec 32) : BitVec 32 := systemCoreClock / 1000000

/-- `delta` -/
def delta (start reload now : BitVec 32) : BitVec 32 :=
  if start > now then start - now else reload + start - now

/-- `rt_hw_us_delay(us)`, where `usTick` is `us_tick`, `reload` is `SysTick->LOAD`, and `val` are
the readings of `SysTick->VAL`, the first one for `start`: the index of the reading at which the
loop ends, in at most `fuel` passes -/
def rtHwUsDelay (usTick reload us : BitVec 32) (val : Nat → BitVec 32) (fuel : Nat) :
    Option Nat :=
  let start := val 0
  doWhile (fun now => delta start reload now < usTick * us) val fuel 1

section
variable {usTick reload start us : BitVec 32}

/-- a down-counter `e` ticks after it was at `s`, before it starts again, and after that -/
theorem counter_eq {R s e : Nat} {now : Nat} (hs : s ≤ R)
    (hnow : (now : Int) = ((s : Int) - e) % (R + 1)) (he : e ≤ R) :
    e ≤ s ∧ now = s - e ∨ s < e ∧ now = s + (R + 1) - e := by
  rcases Nat.lt_or_ge s e with hlt | hge
  · have hwrap : ((s : Int) - e) % (R + 1) = s - e + (R + 1) := by
      rw [← Int.add_emod_right]
      exact Int.emod_eq_of_lt (by omega) (by omega)
    exact Or.inr ⟨hlt, by omega⟩
  · have hdown : ((s : Int) - e) % (R + 1) = s - e := Int.emod_eq_of_lt (by omega) (by omega)
    exact Or.inl ⟨hge, by omega⟩

/-- the elapsed ticks `e`, or one less if the counter has started again -/
theorem toNat_delta {now : BitVec 32} {e : Nat} (hs : start ≤ reload)
    (hnow : (now.toNat : Int) = ((start.toNat : Int) - e) % (reload.toNat + 1)) (h1 : 1 ≤ e)
    (he : e ≤ reload.toNat) :
    (delta start reload now).toNat = if e ≤ start.toNat then e else e - 1 := by
  have hs' : start.toNat ≤ reload.toNat := hs
  have hlt := reload.isLt
  rcases counter_eq hs' hnow he with ⟨hge, hval⟩ | ⟨hlt, hval⟩
  · have hgt : start > now := by
      show now.toNat < start.toNat
      omega
    rw [delta, if_pos hgt, if_pos hge, BitVec.toNat_sub_of_le (BitVec.le_of_lt hgt)]
    omega
  · have hngt : ¬ start > now := by
      intro h
      have h' : now.toNat < start.toNat := h
      omega
    rw [delta, if_neg hngt, if_neg (by omega), BitVec.toNat_sub, BitVec.toNat_add]
    omega

theorem toNat_mul_lt {a b c : BitVec 32} (h : a.toNat * b.toNat < c.toNat) :
    (a * b).toNat = a.toNat * b.toNat := by
  rw [BitVec.toNat_mul]
  exact Nat.mod_eq_of_lt (Nat.lt_trans h c.isLt)

theorem reading_zero {now : BitVec 32} (hs : start ≤ reload)
    (hnow : (now.toNat : Int) = ((start.toNat : Int) - (0 : Nat)) % (reload.toNat + 1)) :
    now = start := by
  have hs' : start.toNat ≤ reload.toNat := hs
  rcases counter_eq hs' hnow (Nat.zero_le _) with ⟨-, h⟩ | ⟨h, -⟩
  · exact BitVec.eq_of_toNat_eq h
  · exact absurd h (Nat.not_lt_zero _)

/-- where the loop ends, in the first round of the counter -/
theorem ends_iff {now : BitVec 32} {e : Nat} (hs : start ≤ reload)
    (hT : usTick.toNat * us.toNat < reload.toNat)
    (hnow : (now.toNat : Int) = ((start.toNat : Int) - e) % (reload.toNat + 1)) (h1 : 1 ≤ e)
    (he : e ≤ reload.toNat) :
    decide (delta start reload now < usTick * us) = false ↔
      usTick.toNat * us.toNat ≤ if e ≤ start.toNat then e else e - 1 := by
  rw [decide_eq_false_iff_not, BitVec.not_lt, BitVec.le_def, toNat_mul_lt hT,
    toNat_delta hs hnow h1 he]

/-- **The delay is never too short, and it ends.**  `e i` are the ticks between the first reading
and the `i`-th.  The loop never ends at a reading before `T` ticks have passed.  If the readings are
at most `R - T` ticks apart, it ends at one within `R + 1` ticks. -/
theorem rtHwUsDelay_window {val : Nat → BitVec 32} {e : Nat → Nat} (hs : start ≤ reload)
    (hT : usTick.toNat * us.toNat < reload.toNat) (h0 : e 0 = 0) (hmono : StrictMono e)
    (hval : ∀ i, ((val i).toNat : Int) = ((start.toNat : Int) - e i) % (reload.toNat + 1)) :
    (∀ fuel i, rtHwUsDelay usTick reload us val fuel = some i →
      usTick.toNat * us.toNat ≤ e i) ∧
    ((∀ i, e (i + 1) - e i ≤ reload.toNat - usTick.toNat * us.toNat) →
      ∃ i, e i ≤ reload.toNat + 1 ∧
        ∀ fuel, i ≤ fuel → rtHwUsDelay usTick reload us val fuel = some i) := by
  have hstart : val 0 = start := reading_zero hs (by rw [hval, h0])
  have hfirst : ∀ i, 1 ≤ i → 1 ≤ e i := by
    intro i hi
    have h := hmono (show 0 < i by omega)
    omega
  unfold rtHwUsDelay
  rw [hstart]
  constructor
  · intro fuel i hexit
    obtain ⟨hi, -, hout, -⟩ := doWhile_eq_some_iff.mp hexit
    by_contra hearly
    have hdelta := (ends_iff hs hT (hval i) (hfirst i hi) (by omega)).mp hout
    split at hdelta <;> omega
  · intro hgap
    have hgap' : ∀ i, e (i + 1) ≤ e i + (reload.toNat - usTick.toNat * us.toNat) := by
      intro i
      have h := hgap i
      omega
    obtain ⟨k, hlo, hhi⟩ := exists_mem_window hmono hgap'
      (show e 0 < usTick.toNat * us.toNat + 1 by omega)
    have hout := (ends_iff hs hT (hval (k + 1)) (by omega) (by omega)).mpr (by split <;> omega)
    obtain ⟨m, hm, hexit⟩ := exists_exit (fun now => decide (delta start reload now < usTick * us))
      val (show 1 ≤ k + 1 by omega) hout
    refine ⟨m, ?_, fun fuel hfuel => hexit fuel (by omega)⟩
    have hle := hmono.monotone hm
    omega

/-- 800 microseconds at 72 MHz, read every 1000 ticks, from shortly before the counter starts again;
`T` is 57600 -/
theorem rtHwUsDelay_window_row :
    (∀ fuel i, rtHwUsDelay (usTickOf 72000000) 71999 800
        (fun i => BitVec.ofInt 32 ((100 - 1000 * i) % 72000)) fuel = some i →
      (usTickOf 72000000).toNat * (800 : BitVec 32).toNat ≤ 1000 * i) ∧
    ((∀ i, 1000 * (i + 1) - 1000 * i ≤ (71999 : BitVec 32).toNat -
        (usTickOf 72000000).toNat * (800 : BitVec 32).toNat) →
      ∃ i, 1000 * i ≤ (71999 : BitVec 32).toNat + 1 ∧
        ∀ fuel, i ≤ fuel → rtHwUsDelay (usTickOf 72000000) 71999 800
          (fun i => BitVec.ofInt 32 ((100 - 1000 * i) % 72000)) fuel = some i) :=
  @rtHwUsDelay_window (usTickOf 72000000) 71999 100 800 _ (fun i => 1000 * i) (by decide)
    (by decide) rfl
    (fun i j hij => by
      show 1000 * i < 1000 * j
      omega)
    (fun i => by
      rw [BitVec.toNat_ofInt]
      have hcast : ((1000 * i : Nat) : Int) = 1000 * i := by omega
      show _ = ((100 : Int) - (1000 * i : Nat)) % (71999 + 1)
      rw [hcast]
      omega)

end

end ENV

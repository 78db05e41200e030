import Enviroment.Kernel.Ipc
import Enviroment.Lib.Alarms
import Enviroment.Lib.Trace

/-!
# The timers (`timer.c`)

All timers that are started stand in one list; the tick, and with it each `timeout_tick`, is a
counter of 32 bits that wraps.  The walk of `rt_timer_start` and the loop of `rt_timer_check`
compare two ticks by their difference.

* `rtTimerStart`, `rtTimerStop`, `rtTimerCheck`   the calls, each taken as one step;
* `Armed`          the list is sorted by the moments, counted without end, at which the timers
                   expire;
* `check_spec`     `rt_timer_check` ends, and calls exactly the timers whose moment has come;
* `timer_alone`    each timer is an alarm on its own: neither the common list nor the wrap of the
                   counter shows.
-/

set_option linter.unusedSectionVars false

namespace ENV

open Alarms Trace

/-- `RT_TICK_MAX / 2` -/
def halfTick : BitVec 32 := 0xffffffff / 2

theorem toNat_halfTick : halfTick.toNat = 2 ^ 31 - 1 := by decide

/-- `struct rt_timer` -/
structure Timer where
  timeoutTick : BitVec 32
  initTick : BitVec 32
  /-- `RT_TIMER_FLAG_PERIODIC` -/
  periodic : Bool
  /-- `RT_TIMER_FLAG_ACTIVATED` -/
  activated : Bool

/-- `rt_tick`, `rt_timer_list` and the timers -/
structure TimerSt (ι : Type*) where
  rtTick : BitVec 32
  list : List ι
  timer : ι → Timer

section
variable {ι σ : Type*} [DecidableEq ι]

def TimerSt.edit (s : TimerSt ι) (i : ι) (f : Timer → Timer) : TimerSt ι :=
  { s with timer := Function.update s.timer i (f (s.timer i)) }

/-- `timer->parent.flag &= ~RT_TIMER_FLAG_ACTIVATED` -/
def TimerSt.off (s : TimerSt ι) (i : ι) : TimerSt ι :=
  s.edit i fun t => { t with activated := false }

/-- `_rt_timer_remove(timer)` -/
def rtTimerRemove (s : TimerSt ι) (i : ι) : TimerSt ι := { s with list := s.list.erase i }

/-- `_rt_timer_init(timer, timeout, parameter, time, flag)` -/
def rtTimerInit (time : BitVec 32) (periodic : Bool) : Timer := ⟨0, time, periodic, false⟩

/-- the walk of `rt_timer_start`, and the insertion where it ends -/
def insertTimer (timer : ι → Timer) (i : ι) : List ι → List ι
  | [] => [i]
  | j :: l =>
    if (timer j).timeoutTick - (timer i).timeoutTick = 0 then j :: insertTimer timer i l
    else if (timer j).timeoutTick - (timer i).timeoutTick < halfTick then i :: j :: l
    else j :: insertTimer timer i l

/-- `rt_timer_start(timer)`; `none` if its assertion fails -/
def rtTimerStart (s : TimerSt ι) (i : ι) : Option (TimerSt ι) :=
  let s := (rtTimerRemove s i).off i
  if (s.timer i).initTick < halfTick then
    let s := s.edit i fun t => { t with timeoutTick := s.rtTick + t.initTick }
    let s := { s with list := insertTimer s.timer i s.list }
    some (s.edit i fun t => { t with activated := true })
  else none

/-- `rt_timer_stop(timer)` -/
def rtTimerStop (s : TimerSt ι) (i : ι) : RtErr × TimerSt ι :=
  if (s.timer i).activated = false then (-rtError, s)
  else (rtEok, (rtTimerRemove s i).off i)

/-- `rt_timer_control(timer, RT_TIMER_CTRL_SET_TIME, &time)` -/
def rtTimerSetTime (s : TimerSt ι) (i : ι) (time : BitVec 32) : TimerSt ι :=
  s.edit i fun t => { t with initTick := time }

/-- `RT_TIMER_CTRL_SET_ONESHOT` and `RT_TIMER_CTRL_SET_PERIODIC` of `rt_timer_control` -/
def rtTimerSetPeriodic (s : TimerSt ι) (i : ι) (b : Bool) : TimerSt ι :=
  s.edit i fun t => { t with periodic := b }

/-- `rt_timer_check()` in at most `fuel` passes; `timeout i` is the timeout function of the timer
`i`, on what the timers are not part of, or `none` if an assertion fails in it -/
def rtTimerCheck (timeout : ι → σ → Option σ) :
    Nat → TimerSt ι → σ → Option (TimerSt ι × σ)
  | 0, _, _ => none
  | fuel + 1, s, x =>
    match s.list with
    | [] => some (s, x)
    | i :: _ =>
      if s.rtTick - (s.timer i).timeoutTick < halfTick then
        let s := rtTimerRemove s i
        (timeout i x).bind fun x =>
          if (s.timer i).periodic && (s.timer i).activated then
            (rtTimerStart (s.off i) i).bind fun s => rtTimerCheck timeout fuel s x
          else rtTimerCheck timeout fuel (s.off i) x
      else some (s, x)

/-- the tick and the timers in `rt_tick_increase`; every timer is called once, so there are passes
enough -/
def rtTickTimers (timeout : ι → σ → Option σ) (s : TimerSt ι) (x : σ) :
    Option (TimerSt ι × σ) :=
  rtTimerCheck timeout (s.list.length + 1) { s with rtTick := s.rtTick + 1 } x

section
variable (s : TimerSt ι) (i : ι) (f : Timer → Timer)

@[simp] theorem edit_list : (s.edit i f).list = s.list := rfl
@[simp] theorem edit_rtTick : (s.edit i f).rtTick = s.rtTick := rfl
@[simp] theorem edit_self : (s.edit i f).timer i = f (s.timer i) := Function.update_self ..
@[simp] theorem remove_list : (rtTimerRemove s i).list = s.list.erase i := rfl
@[simp] theorem remove_rtTick : (rtTimerRemove s i).rtTick = s.rtTick := rfl
@[simp] theorem remove_timer : (rtTimerRemove s i).timer = s.timer := rfl

theorem edit_of_ne {i j : ι} (h : j ≠ i) : (s.edit i f).timer j = s.timer j :=
  Function.update_of_ne h ..

end

/-! ## the list -/

/-- The list holds the timers in the order of their moments `key`, counted without end; `now` is
the moment that the counter shows, and no moment before `lo` is left. -/
structure Armed (lo now : Nat) (key : ι → Nat) (s : TimerSt ι) : Prop where
  tick : s.rtTick = BitVec.ofNat 32 now
  recent : lo ≤ now ∧ now ≤ lo + 1
  nodup : s.list.Nodup
  sorted : Urgent key s.list
  timeout : ∀ i ∈ s.list, (s.timer i).timeoutTick = BitVec.ofNat 32 (key i)
  activated : ∀ i ∈ s.list, (s.timer i).activated = true
  window : ∀ i ∈ s.list, lo ≤ key i ∧ key i < now + (2 ^ 31 - 1)

/-- what `rt_timer_start` asks of a timer; a period of no ticks has no end -/
def Timer.Fits (t : Timer) : Prop := t.initTick < halfTick ∧ (t.periodic = true → t.initTick ≠ 0)

instance Timer.decidableFits (t : Timer) : Decidable t.Fits :=
  inferInstanceAs (Decidable (_ ∧ (_ → _)))

variable {lo now : Nat} {key : ι → Nat} {s : TimerSt ι} {i : ι}

theorem Timer.Fits.pos {t : Timer} (h : t.Fits) (hp : t.periodic = true) : 0 < t.initTick.toNat :=
  Nat.pos_of_ne_zero fun h0 => h.2 hp (BitVec.eq_of_toNat_eq h0)

/-- **The comparison of `rt_timer_check`**: the moment has come. -/
theorem expired_iff (h : Armed lo now key s) (hi : i ∈ s.list) :
    s.rtTick - (s.timer i).timeoutTick < halfTick ↔ key i ≤ now := by
  obtain ⟨h1, h2⟩ := h.window i hi
  have hr := h.recent
  rw [h.tick, h.timeout i hi]
  exact sub_lt_iff (by rw [toNat_halfTick]; omega) (by rw [toNat_halfTick]; omega)

/-- **The walk of `rt_timer_start`** compares as if the moments had no end. -/
theorem insertTimer_eq {timer : ι → Timer} {l : List ι}
    (hi : (timer i).timeoutTick = BitVec.ofNat 32 (key i))
    (hl : ∀ j ∈ l, (timer j).timeoutTick = BitVec.ofNat 32 (key j))
    (hw : ∀ j ∈ l, key j < key i + (2 ^ 31 - 1) ∧ key i + (2 ^ 31 - 1) ≤ key j + 2 ^ 32) :
    insertTimer timer i l = insertPrio key i l := by
  induction l with
  | nil => rfl
  | cons j l ih =>
    obtain ⟨h1, h2⟩ := hw j List.mem_cons_self
    have hzero : (timer j).timeoutTick - (timer i).timeoutTick = 0 ↔ key j = key i := by
      rw [hi, hl j List.mem_cons_self]
      exact sub_eq_zero_iff (by omega) (by omega)
    have hlt : (timer j).timeoutTick - (timer i).timeoutTick < halfTick ↔ key i ≤ key j := by
      rw [hi, hl j List.mem_cons_self]
      exact sub_lt_iff (by rw [toNat_halfTick]; omega) (by rw [toNat_halfTick]; omega)
    have ih' := ih (fun k hk => hl k (List.mem_cons_of_mem _ hk))
      (fun k hk => hw k (List.mem_cons_of_mem _ hk))
    unfold insertTimer insertPrio
    by_cases hlate : key i < key j
    · rw [if_neg (by rw [hzero]; omega), if_pos (hlt.mpr (Nat.le_of_lt hlate)), if_pos hlate]
    · rw [if_neg hlate, ih']
      by_cases heq : key j = key i
      · rw [if_pos (hzero.mpr heq)]
      · rw [if_neg (mt hzero.mp heq), if_neg (by rw [hlt]; omega)]

/-! ## the calls -/

/-- what an operation leaves of the timers that it is not about -/
def SameElse (i : ι) (s t : TimerSt ι) : Prop :=
  t.rtTick = s.rtTick ∧ (∀ j, j ≠ i → t.timer j = s.timer j) ∧
    (t.timer i).initTick = (s.timer i).initTick ∧ (t.timer i).periodic = (s.timer i).periodic

theorem armed_remove (h : Armed lo now key s) (i : ι) : Armed lo now key (rtTimerRemove s i) := by
  have hsub : ∀ j ∈ (rtTimerRemove s i).list, j ∈ s.list := fun j hj => List.mem_of_mem_erase hj
  exact ⟨h.tick, h.recent, h.nodup.erase i, h.sorted.sublist List.erase_sublist,
    fun j hj => h.timeout j (hsub j hj), fun j hj => h.activated j (hsub j hj),
    fun j hj => h.window j (hsub j hj)⟩

/-- a timer that is not in the list may be changed -/
theorem armed_edit (h : Armed lo now key s) (hi : i ∉ s.list) (f : Timer → Timer) :
    Armed lo now key (s.edit i f) := by
  have hne : ∀ j ∈ s.list, (s.edit i f).timer j = s.timer j :=
    fun j hj => edit_of_ne s f fun e => hi (e ▸ hj)
  refine ⟨h.tick, h.recent, h.nodup, h.sorted, fun j hj => ?_, fun j hj => ?_, h.window⟩
  · rw [hne j hj]
    exact h.timeout j hj
  · rw [hne j hj]
    exact h.activated j hj

/-- a change that leaves the moment of a timer -/
theorem armed_set (h : Armed lo now key s) {f : Timer → Timer}
    (hto : ∀ t, (f t).timeoutTick = t.timeoutTick) (hact : ∀ t, (f t).activated = t.activated) :
    Armed lo now key (s.edit i f) := by
  have hall : ∀ j, ((s.edit i f).timer j).timeoutTick = (s.timer j).timeoutTick ∧
      ((s.edit i f).timer j).activated = (s.timer j).activated := fun j => by
    by_cases hji : j = i
    · subst hji
      rw [edit_self]
      exact ⟨hto _, hact _⟩
    · rw [edit_of_ne _ _ hji]
      exact ⟨rfl, rfl⟩
  exact ⟨h.tick, h.recent, h.nodup, h.sorted, fun j hj => (hall j).1.trans (h.timeout j hj),
    fun j hj => (hall j).2.trans (h.activated j hj), h.window⟩

/-- taken out of the list, and no longer activated -/
theorem armed_off (h : Armed lo now key s) (i : ι) : Armed lo now key ((rtTimerRemove s i).off i) :=
  armed_edit (armed_remove h i) (fun hi => (h.nodup.mem_erase_iff.mp hi).1 rfl) _

theorem sameElse_off (s : TimerSt ι) (i : ι) : SameElse i s ((rtTimerRemove s i).off i) := by
  refine ⟨rfl, fun j hj => edit_of_ne _ _ hj, ?_, ?_⟩
  · rw [TimerSt.off, edit_self, remove_timer]
  · rw [TimerSt.off, edit_self, remove_timer]

theorem sameElse_remove (s : TimerSt ι) (i : ι) : SameElse i s (rtTimerRemove s i) :=
  ⟨rfl, fun _ _ => rfl, rfl, rfl⟩

theorem SameElse.initTick {t : TimerSt ι} (h : SameElse i s t) (j : ι) :
    (t.timer j).initTick = (s.timer j).initTick := by
  by_cases hj : j = i
  · exact hj ▸ h.2.2.1
  · rw [h.2.1 j hj]

theorem SameElse.periodic {t : TimerSt ι} (h : SameElse i s t) (j : ι) :
    (t.timer j).periodic = (s.timer j).periodic := by
  by_cases hj : j = i
  · exact hj ▸ h.2.2.2
  · rw [h.2.1 j hj]

theorem SameElse.fits {t : TimerSt ι} (h : SameElse i s t) (hf : ∀ j, (s.timer j).Fits) (j : ι) :
    (t.timer j).Fits := by
  unfold Timer.Fits
  rw [h.initTick, h.periodic]
  exact hf j

theorem not_mem_remove (h : Armed lo now key s) (i : ι) : i ∉ (rtTimerRemove s i).list :=
  fun hi => (h.nodup.mem_erase_iff.mp hi).1 rfl

/-- a timer that does not stand in the list, put where its moment `k` belongs -/
theorem armed_insert (h : Armed lo now key s) (hi : i ∉ s.list) {k : Nat}
    (hk : now ≤ k ∧ k < now + (2 ^ 31 - 1))
    (hto : (s.timer i).timeoutTick = BitVec.ofNat 32 k) :
    Armed lo now (Function.update key i k)
        (({ s with list := insertTimer s.timer i s.list } : TimerSt ι).edit i
          fun t => { t with activated := true }) ∧
      insertTimer s.timer i s.list = insertPrio (Function.update key i k) i s.list := by
  have hr := h.recent
  have hne : ∀ j ∈ s.list, j ≠ i := fun j hj e => hi (e ▸ hj)
  have hkeyi : Function.update key i k i = k := Function.update_self ..
  have hkeyj : ∀ j ∈ s.list, Function.update key i k j = key j :=
    fun j hj => Function.update_of_ne (hne j hj) ..
  have hins : insertTimer s.timer i s.list = insertPrio (Function.update key i k) i s.list := by
    refine insertTimer_eq (by rw [hkeyi]; exact hto) (fun j hj => ?_) (fun j hj => ?_)
    · rw [hkeyj j hj]
      exact h.timeout j hj
    · obtain ⟨hlo, hhi⟩ := h.window j hj
      rw [hkeyj j hj, hkeyi]
      omega
  have hperm := insertPrio_perm (Function.update key i k) i s.list
  have hmem : ∀ j, j ∈ insertTimer s.timer i s.list ↔ j = i ∨ j ∈ s.list := fun j => by
    rw [hins, hperm.mem_iff, List.mem_cons]
  have hsorted : Urgent (Function.update key i k) s.list :=
    h.sorted.imp_of_mem fun ha hb hab => by rwa [hkeyj _ ha, hkeyj _ hb]
  refine ⟨⟨h.tick, hr, ?_, ?_, fun j hj => ?_, fun j hj => ?_, fun j hj => ?_⟩, hins⟩
  · show (insertTimer s.timer i s.list).Nodup
    rw [hins, hperm.nodup_iff]
    exact List.nodup_cons.mpr ⟨hi, h.nodup⟩
  · show Urgent _ (insertTimer s.timer i s.list)
    rw [hins]
    exact insertPrio_urgent _ hsorted i
  · rcases (hmem j).mp hj with rfl | hj'
    · rw [edit_self, hkeyi]
      exact hto
    · rw [edit_of_ne _ _ (hne j hj'), hkeyj j hj']
      exact h.timeout j hj'
  · rcases (hmem j).mp hj with rfl | hj'
    · rw [edit_self]
    · rw [edit_of_ne _ _ (hne j hj')]
      exact h.activated j hj'
  · rcases (hmem j).mp hj with rfl | hj'
    · rw [hkeyi]
      omega
    · rw [hkeyj j hj']
      exact h.window j hj'

/-- **`rt_timer_start`**: the timer stands in the list, its moment `init_tick` ahead. -/
theorem start_spec (h : Armed lo now key s) (hfit : (s.timer i).initTick < halfTick) :
    ∃ t key', rtTimerStart s i = some t ∧ Armed lo now key' t ∧
      key' = Function.update key i (now + (s.timer i).initTick.toNat) ∧
      t.list = insertPrio key' i (s.list.erase i) ∧ SameElse i s t := by
  have hd : (s.timer i).initTick.toNat < 2 ^ 31 - 1 := by
    rw [BitVec.lt_def, toNat_halfTick] at hfit
    exact hfit
  set s0 := (rtTimerRemove s i).off i with hs0
  set s1 := s0.edit i fun t => { t with timeoutTick := s0.rtTick + t.initTick } with hs1
  obtain ⟨-, hne0, hinit, hper⟩ := sameElse_off s i
  have hnot : i ∉ s1.list := not_mem_remove h i
  have h1 : Armed lo now key s1 := armed_edit (armed_off h i) hnot _
  have hto : (s1.timer i).timeoutTick = BitVec.ofNat 32 (now + (s.timer i).initTick.toNat) := by
    rw [hs1, edit_self, BitVec.ofNat_add, BitVec.ofNat_toNat, BitVec.setWidth_eq, ← h.tick, hinit]
    rfl
  obtain ⟨hA, hins⟩ := armed_insert h1 hnot (by omega) hto
  refine ⟨_, _, if_pos (by rw [hinit]; exact hfit), hA, rfl, hins, rfl, fun j hj => ?_, ?_, ?_⟩
  · rw [edit_of_ne _ _ hj]
    show s1.timer j = _
    rw [hs1, edit_of_ne _ _ hj, hne0 j hj]
  · rw [edit_self]
    show (s1.timer i).initTick = _
    rw [hs1, edit_self]
    exact hinit
  · rw [edit_self]
    show (s1.timer i).periodic = _
    rw [hs1, edit_self]
    exact hper

/-- **`rt_timer_stop`**: the timer does not stand in the list. -/
theorem stop_spec (h : Armed lo now key s) (i : ι) :
    Armed lo now key (rtTimerStop s i).2 ∧
      (∀ j, j ∈ (rtTimerStop s i).2.list ↔ j ≠ i ∧ j ∈ s.list) ∧
      SameElse i s (rtTimerStop s i).2 := by
  unfold rtTimerStop
  split
  next hoff =>
    refine ⟨h, fun j => ⟨fun hj => ⟨?_, hj⟩, And.right⟩, rfl, fun _ _ => rfl, rfl, rfl⟩
    rintro rfl
    exact absurd (h.activated j hj) (by rw [hoff]; decide)
  next => exact ⟨armed_off h i, fun j => h.nodup.mem_erase_iff, sameElse_off s i⟩

/-! ## the tick -/

/-- the timers whose moment has come, in the order of the list -/
def expired (now : Nat) (key : ι → Nat) (l : List ι) : List ι := l.filter fun i => key i ≤ now

theorem mem_insertPrio_erase (key : ι → Nat) (i j : ι) (l : List ι) :
    j ∈ insertPrio key i (l.erase i) ↔ j = i ∨ j ∈ l := by
  rw [(insertPrio_perm key i _).mem_iff, List.mem_cons]
  by_cases hj : j = i
  · exact ⟨fun _ => Or.inl hj, fun _ => Or.inl hj⟩
  · exact or_congr_right (List.mem_erase_of_ne hj)

theorem expired_insertPrio {l : List ι} (hi : now < key i) :
    expired now key (insertPrio key i l) = expired now key l := by
  have hno : ¬ key i ≤ now := by omega
  induction l with
  | nil => exact List.filter_eq_nil_iff.mpr (by simpa [insertPrio] using hi)
  | cons j l ih =>
    unfold expired at ih ⊢
    unfold insertPrio
    split
    · rw [List.filter_cons_of_neg (by simpa using hno)]
    · rw [List.filter_cons, List.filter_cons, ih]

theorem expired_congr {key' : ι → Nat} {l : List ι} (h : ∀ j ∈ l, key' j = key j) :
    expired now key' l = expired now key l :=
  List.filter_congr fun j hj => by rw [h j hj]

theorem expired_of_lt {l : List ι} (hs : Urgent key (i :: l)) (hlt : now < key i) :
    ∀ j ∈ i :: l, now < key j := by
  intro j hj
  rcases List.mem_cons.mp hj with rfl | hj'
  · exact hlt
  · exact Nat.lt_of_lt_of_le hlt ((List.pairwise_cons.mp hs).1 j hj')

/-- what `rt_timer_check` makes of the timers: who has expired has left the list, or stands there
with the next moment if he is periodic -/
structure Checked (now : Nat) (key : ι → Nat) (s : TimerSt ι) (key' : ι → Nat) (t : TimerSt ι) :
    Prop where
  armed : Armed now now key' t
  later : ∀ i ∈ t.list, now < key' i
  mem : ∀ i, i ∈ t.list ↔ i ∈ s.list ∧ (key i ≤ now → (s.timer i).periodic = true)
  moment : ∀ i ∈ t.list,
    key' i = if key i ≤ now then now + (s.timer i).initTick.toNat else key i
  initTick : ∀ i, (t.timer i).initTick = (s.timer i).initTick
  periodic : ∀ i, (t.timer i).periodic = (s.timer i).periodic

theorem Checked.fits {t : TimerSt ι} {key' : ι → Nat} (h : Checked now key s key' t)
    (hf : ∀ i, (s.timer i).Fits) (i : ι) : (t.timer i).Fits := by
  unfold Timer.Fits
  rw [h.initTick, h.periodic]
  exact hf i

/-- nobody has expired -/
theorem checked_none (h : Armed lo now key s) (hl : ∀ i ∈ s.list, now < key i) :
    Checked now key s key s := by
  refine ⟨⟨h.tick, ⟨Nat.le_refl _, by omega⟩, h.nodup, h.sorted, h.timeout, h.activated,
    fun i hi => ⟨Nat.le_of_lt (hl i hi), (h.window i hi).2⟩⟩, hl, fun i => ?_, fun i hi => ?_,
    fun _ => rfl, fun _ => rfl⟩
  · refine ⟨fun hi => ⟨hi, fun hk => ?_⟩, And.left⟩
    have := hl i hi
    omega
  · rw [if_neg (by have := hl i hi; omega)]

variable {timeout : ι → σ → Option σ}

/-- one pass: the first of the list has expired -/
theorem check_cons {l : List ι} {fuel : Nat} (hlist : s.list = i :: l)
    (hexp : s.rtTick - (s.timer i).timeoutTick < halfTick) (x : σ) :
    rtTimerCheck timeout (fuel + 1) s x =
      (timeout i x).bind fun x =>
        if (s.timer i).periodic && (s.timer i).activated then
          (rtTimerStart ((rtTimerRemove s i).off i) i).bind fun s => rtTimerCheck timeout fuel s x
        else rtTimerCheck timeout fuel ((rtTimerRemove s i).off i) x := by
  rw [rtTimerCheck]
  simp only [hlist, if_pos hexp, remove_timer]
  rfl

/-- a pass in front of the others: `i` has expired, and stands in the list again if he is periodic -/
theorem Checked.cons {s2 t : TimerSt ι} {key2 key' : ι → Nat} (h : Checked now key2 s2 key' t)
    (hexp : key i ≤ now) (hmem : ∀ j, j ∈ s2.list ↔ j ∈ s.list ∧
      (j = i → (s.timer i).periodic = true)) (hkey : ∀ j, j ≠ i → key2 j = key j)
    (hi : i ∈ s2.list → key2 i = now + (s.timer i).initTick.toNat ∧ now < key2 i)
    (hinit : ∀ j, (s2.timer j).initTick = (s.timer j).initTick)
    (hper : ∀ j, (s2.timer j).periodic = (s.timer j).periodic) : Checked now key s key' t := by
  refine ⟨h.armed, h.later, fun j => ?_, fun j hj => ?_, fun j => (h.initTick j).trans (hinit j),
    fun j => (h.periodic j).trans (hper j)⟩
  · rw [h.mem, hmem, hper]
    by_cases hj : j = i
    · subst hj
      constructor
      · rintro ⟨⟨h1, h2⟩, -⟩
        exact ⟨h1, fun _ => h2 rfl⟩
      · rintro ⟨h1, h2⟩
        exact ⟨⟨h1, fun _ => h2 hexp⟩, fun _ => h2 hexp⟩
    · rw [hkey j hj]
      exact and_congr_left' ⟨And.left, fun h1 => ⟨h1, fun e => absurd e hj⟩⟩
  · have hj2 := ((h.mem j).mp hj).1
    rw [h.moment j hj, hinit]
    by_cases hji : j = i
    · subst hji
      obtain ⟨h1, h2⟩ := hi hj2
      rw [if_neg (by omega), if_pos hexp, h1]
    · rw [hkey j hji]

/-- **`rt_timer_check` ends**, and has called exactly the timers whose moment has come, each one
once and in the order of the list. -/
theorem check_spec (timeout : ι → σ → Option σ) (fuel : Nat) :
    ∀ (s : TimerSt ι) (key : ι → Nat), Armed lo now key s → (∀ i, (s.timer i).Fits) →
      (expired now key s.list).length < fuel →
      ∃ t key', Checked now key s key' t ∧ ∀ x, rtTimerCheck timeout fuel s x =
        ((expired now key s.list).foldlM (fun x i => timeout i x) x).map fun x => (t, x) := by
  induction fuel with
  | zero => exact fun _ _ _ _ hf => absurd hf (Nat.not_lt_zero _)
  | succ fuel ih =>
    intro s key h hfit hf
    rcases hlist : s.list with _ | ⟨i, l⟩
    · refine ⟨s, key, checked_none h (by rw [hlist]; intro i hi; cases hi), fun x => ?_⟩
      rw [rtTimerCheck]
      simp only [hlist]
      rfl
    have hi : i ∈ s.list := hlist ▸ List.mem_cons_self
    by_cases hexp : key i ≤ now
    · have hl : ((rtTimerRemove s i).off i).list = l := by
        show s.list.erase i = l
        rw [hlist, List.erase_cons_head]
      have hil : i ∉ l := (List.nodup_cons.mp (hlist ▸ h.nodup)).1
      have hsame := sameElse_off s i
      have h1 := armed_off h i
      have hcons : expired now key (i :: l) = i :: expired now key l :=
        List.filter_cons_of_pos (by simpa using hexp)
      have hpass : ∀ x, rtTimerCheck timeout (fuel + 1) s x = _ :=
        check_cons hlist ((expired_iff h hi).mpr hexp)
      rw [hlist, hcons, List.length_cons] at hf
      rw [h.activated i hi, Bool.and_true] at hpass
      rw [hcons]
      cases hper : (s.timer i).periodic with
      | true =>
        have hinit := hsame.initTick i
        obtain ⟨s2, key2, hs2, h2, hkey2, hlist2, hsame2⟩ :=
          start_spec h1 (hsame.fits hfit i).1
        have hkeyi : key2 i = now + (s.timer i).initTick.toNat := by
          rw [hkey2, Function.update_self, hinit]
        have hkeyj : ∀ j, j ≠ i → key2 j = key j := fun j hj => by
          rw [hkey2, Function.update_of_ne hj]
        have hpos : now < key2 i := by
          have := (hfit i).pos hper
          omega
        rw [hl, List.erase_of_not_mem hil] at hlist2
        have hexp2 : expired now key2 s2.list = expired now key l := by
          rw [hlist2, expired_insertPrio hpos]
          exact expired_congr fun j hj => hkeyj j fun e => hil (e ▸ hj)
        obtain ⟨t, key', hc, hrun⟩ := ih s2 key2 h2 (hsame2.fits (hsame.fits hfit))
          (by rw [hexp2]; omega)
        refine ⟨t, key', hc.cons hexp (fun j => ?_) hkeyj (fun _ => ⟨hkeyi, hpos⟩)
          (fun j => (hsame2.initTick j).trans (hsame.initTick j))
          (fun j => (hsame2.periodic j).trans (hsame.periodic j)), fun x => ?_⟩
        · rw [hlist2, (insertPrio_perm key2 i l).mem_iff, hlist]
          exact (and_iff_left fun _ => hper).symm
        · rw [hpass, hper, List.foldlM_cons]
          simp only [if_true, hs2, Option.bind_some, hrun, hexp2]
          cases timeout i x <;> rfl
      | false =>
        obtain ⟨t, key', hc, hrun⟩ := ih _ key h1 (hsame.fits hfit) (by rw [hl]; omega)
        refine ⟨t, key', hc.cons hexp (fun j => ?_) (fun _ _ => rfl) (fun hi1 => ?_)
          hsame.initTick hsame.periodic, fun x => ?_⟩
        · rw [hl, hlist, List.mem_cons, hper]
          constructor
          · exact fun hj => ⟨Or.inr hj, fun e => absurd (e ▸ hj) hil⟩
          · rintro ⟨rfl | hj, hne⟩
            · exact absurd (hne rfl) (by decide)
            · exact hj
        · exact absurd (hl ▸ hi1) hil
        · rw [hpass, hper, List.foldlM_cons]
          simp only [Bool.false_eq_true, if_false, hrun, hl]
          cases timeout i x <;> rfl
    · have hlater := expired_of_lt (hlist ▸ h.sorted) (Nat.not_le.mp hexp)
      refine ⟨s, key, checked_none h (by rwa [hlist]), fun x => ?_⟩
      have hnil : expired now key (i :: l) = [] := List.filter_eq_nil_iff.mpr fun j hj => by
        have := hlater j hj
        simpa using this
      rw [hnil, rtTimerCheck]
      simp only [hlist, if_neg (mt (expired_iff h hi).mp hexp)]
      rfl

/-- a tick: `rt_timer_check` has passes enough -/
theorem tick_spec (h : Armed now now key s) (hfit : ∀ i, (s.timer i).Fits)
    (timeout : ι → σ → Option σ) :
    ∃ t key', Checked (now + 1) key s key' t ∧ ∀ x, rtTickTimers timeout s x =
      ((expired (now + 1) key s.list).foldlM (fun x i => timeout i x) x).map fun x => (t, x) := by
  have h1 : Armed now (now + 1) key ({ s with rtTick := s.rtTick + 1 } : TimerSt ι) := by
    refine ⟨?_, by omega, h.nodup, h.sorted, h.timeout, h.activated, fun i hi => ?_⟩
    · rw [BitVec.ofNat_add, ← h.tick]
      rfl
    · have := h.window i hi
      omega
  obtain ⟨t, key', hc, hrun⟩ := check_spec timeout (s.list.length + 1) _ key h1 hfit
    (Nat.lt_succ_of_le (List.length_filter_le ..))
  exact ⟨t, key', ⟨hc.armed, hc.later, hc.mem, hc.moment, hc.initTick, hc.periodic⟩, hrun⟩

/-! ## when a timer expires -/

/-- when the timer `i` expires, from what the code has: the tick and the `timeout_tick` -/
def TimerSt.due (s : TimerSt ι) (now : Nat) (i : ι) : Option Nat :=
  if i ∈ s.list then some (now + max 1 ((s.timer i).timeoutTick - s.rtTick).toNat) else none

theorem due_eq (h : Armed now now key s) (i : ι) :
    s.due now i = if i ∈ s.list then some (max (key i) (now + 1)) else none := by
  unfold TimerSt.due
  by_cases hi : i ∈ s.list
  · obtain ⟨h1, h2⟩ := h.window i hi
    have hsub : ((s.timer i).timeoutTick - s.rtTick).toNat = key i - now := by
      rw [h.timeout i hi, h.tick]
      exact toNat_sub_of_le h1 (by omega)
    rw [if_pos hi, if_pos hi, hsub]
    congr 1
    omega
  · rw [if_neg hi, if_neg hi]

theorem due_of_not_mem (hi : i ∉ s.list) : s.due now i = none := if_neg hi

/-- an operation on another timer does not show -/
theorem due_else {t : TimerSt ι} {j : ι} (hsame : SameElse j s t) (hij : i ≠ j)
    (hmem : i ∈ t.list ↔ i ∈ s.list) : t.due now i = s.due now i := by
  unfold TimerSt.due
  simp only [hmem, hsame.1, hsame.2.1 i hij]

theorem due_edit {f : Timer → Timer} (hto : ∀ t, (f t).timeoutTick = t.timeoutTick) (i j : ι) :
    (s.edit j f).due now i = s.due now i := by
  have : ((s.edit j f).timer i).timeoutTick = (s.timer i).timeoutTick := by
    by_cases hij : i = j
    · subst hij
      rw [edit_self, hto]
    · rw [edit_of_ne _ _ hij]
  unfold TimerSt.due
  rw [this]
  rfl

theorem due_start {t : TimerSt ι} {key' : ι → Nat} {d : Nat} (h : Armed now now key' t)
    (hkey : key' = Function.update key i (now + d))
    (hlist : t.list = insertPrio key' i (s.list.erase i)) : t.due now i = some (now + max 1 d) := by
  have hi : i ∈ t.list := by
    rw [hlist]
    exact (mem_insertPrio_erase key' i i _).mpr (Or.inl rfl)
  rw [due_eq h, if_pos hi, hkey, Function.update_self]
  congr 1
  omega

/-- whose moment it is -/
theorem mem_expired_iff (h : Armed now now key s) :
    i ∈ expired (now + 1) key s.list ↔ s.due now i = some (now + 1) := by
  rw [due_eq h, expired, List.mem_filter, decide_eq_true_eq]
  by_cases hi : i ∈ s.list
  · rw [if_pos hi]
    constructor
    · rintro ⟨-, hk⟩
      rw [Nat.max_eq_right hk]
    · intro e
      have := Option.some.inj e
      exact ⟨hi, by omega⟩
  · rw [if_neg hi]
    exact iff_of_false (fun h' => hi h'.1) fun e => (by cases e)

/-- **What a tick does to the moments.** -/
theorem due_checked {t : TimerSt ι} {key' : ι → Nat} (h : Armed now now key s)
    (hc : Checked (now + 1) key s key' t) :
    t.due (now + 1) i =
      if s.due now i = some (now + 1) then
        if (s.timer i).periodic then some (now + 1 + max 1 (s.timer i).initTick.toNat) else none
      else s.due now i := by
  rw [due_eq hc.armed]
  by_cases hexp : s.due now i = some (now + 1)
  · obtain ⟨hi, hk⟩ := List.mem_filter.mp ((mem_expired_iff h).mpr hexp)
    rw [decide_eq_true_eq] at hk
    rw [if_pos hexp]
    cases hper : (s.timer i).periodic with
    | true =>
      have hit : i ∈ t.list := (hc.mem i).mpr ⟨hi, fun _ => hper⟩
      rw [if_pos hit, hc.moment i hit, if_pos hk, if_pos rfl]
      congr 1
      omega
    | false =>
      have hit : i ∉ t.list := fun hit => absurd (((hc.mem i).mp hit).2 hk) (by rw [hper]; decide)
      rw [if_neg hit]
      rfl
  · rw [if_neg hexp, due_eq h]
    rw [due_eq h] at hexp
    by_cases hi : i ∈ s.list
    · rw [if_pos hi] at hexp ⊢
      have hk : ¬ key i ≤ now + 1 := fun hk => hexp (by rw [Nat.max_eq_right hk])
      have hit : i ∈ t.list := (hc.mem i).mpr ⟨hi, fun h' => absurd h' hk⟩
      rw [if_pos hit, hc.moment i hit, if_neg hk]
      congr 1
      omega
    · rw [if_neg hi, if_neg fun hit => hi ((hc.mem i).mp hit).1]

/-! ## runs -/

inductive TimerAct (ι : Type*) where
  | start (i : ι)
  | stop (i : ι)
  /-- `rt_timer_detach(timer)`, `rt_timer_delete(timer)` -/
  | detach (i : ι)
  | setTime (i : ι) (time : BitVec 32)
  | setPeriodic (i : ι) (b : Bool)
  | tick

structure TimerRun (ι : Type*) where
  timers : TimerSt ι
  /-- bookkeeping: the ticks so far -/
  now : Nat
  /-- bookkeeping: the ticks at which the timeout function was called, the last one first -/
  called : ι → List Nat

/-- `rt_system_timer_init()`, and the timers of the system -/
def rtSystemTimerInit (time : ι → BitVec 32) (periodic : ι → Bool) : TimerRun ι :=
  ⟨⟨0, [], fun i => rtTimerInit (time i) (periodic i)⟩, 0, fun _ => []⟩

/-- a detached timer may be used again here; the code asserts that it is not, as its object has lost
its type -/
def timersStep (s : TimerRun ι) : TimerAct ι → Option (TimerRun ι)
  | .start i => (rtTimerStart s.timers i).map fun t => { s with timers := t }
  | .stop i => some { s with timers := (rtTimerStop s.timers i).2 }
  | .detach i => some { s with timers := rtTimerRemove s.timers i }
  | .setTime i time => some { s with timers := rtTimerSetTime s.timers i time }
  | .setPeriodic i b => some { s with timers := rtTimerSetPeriodic s.timers i b }
  | .tick =>
    (rtTickTimers (fun i c => some (Function.update c i ((s.now + 1) :: c i))) s.timers
      s.called).map fun p => ⟨p.1, s.now + 1, p.2⟩

/-- who sets a time or a flag leaves a timer that can be started -/
def TimerAct.Fits (s : TimerRun ι) (a : TimerAct ι) (_ : TimerRun ι) : Prop :=
  match a with
  | .setTime i time => ({ s.timers.timer i with initTick := time } : Timer).Fits
  | .setPeriodic i b => ({ s.timers.timer i with periodic := b } : Timer).Fits
  | _ => True

instance TimerAct.decidableFits (s : TimerRun ι) (a : TimerAct ι) (t : TimerRun ι) :
    Decidable (a.Fits s t) :=
  match a with
  | .setTime _ _ => Timer.decidableFits _
  | .setPeriodic _ _ => Timer.decidableFits _
  | .start _ => isTrue trivial
  | .stop _ => isTrue trivial
  | .detach _ => isTrue trivial
  | .tick => isTrue trivial

/-- what an act is to the alarm `i` -/
def TimerAct.alarmAct (i : ι) : TimerAct ι → AlarmAct
  | .start j => if j = i then .start else .other
  | .stop j => if j = i then .stop else .other
  | .detach j => if j = i then .stop else .other
  | .setTime j time => if j = i then .delay time.toNat else .other
  | .setPeriodic j b => if j = i then .again b else .other
  | .tick => .tick

/-- the timer `i` as an alarm -/
def TimerRun.alarm (s : TimerRun ι) (i : ι) : Alarm where
  now := s.now
  due := s.timers.due s.now i
  delay := (s.timers.timer i).initTick.toNat
  again := (s.timers.timer i).periodic
  rung := s.called i

structure TimerInv (key : ι → Nat) (s : TimerRun ι) : Prop where
  armed : Armed s.now s.now key s.timers
  fits : ∀ i, (s.timers.timer i).Fits

variable {r : TimerRun ι}

/-- what a step does to the alarms, and that the invariant is kept -/
def StepsTo (s : TimerRun ι) (a : TimerAct ι) (t : TimerRun ι) : Prop :=
  (∃ key, TimerInv key t) ∧ ∀ i, t.alarm i = (s.alarm i).step (a.alarmAct i)

/-- an operation on one timer: what it does to that one, and nothing to the others -/
theorem alarm_of_sameElse {t : TimerSt ι} {i j : ι} (hsame : SameElse j r.timers t)
    (hmem : ∀ k, k ≠ j → (k ∈ t.list ↔ k ∈ r.timers.list)) {act : AlarmAct}
    (hact : ({ r.alarm j with due := t.due r.now j } : Alarm) = (r.alarm j).step act) :
    ({ r with timers := t } : TimerRun ι).alarm i =
      (r.alarm i).step (if j = i then act else .other) := by
  by_cases hij : j = i
  · subst hij
    rw [if_pos rfl, ← hact]
    unfold TimerRun.alarm
    simp only [hsame.initTick, hsame.periodic]
  · have hne := Ne.symm hij
    rw [if_neg hij]
    unfold TimerRun.alarm
    simp only [due_else hsame hne (hmem i hne), hsame.initTick, hsame.periodic]
    rfl

theorem step_start (h : TimerInv key r) (j : ι) :
    ∃ t, timersStep r (.start j) = some t ∧ StepsTo r (.start j) t := by
  obtain ⟨t, key', ht, hA, hkey, hlist, hsame⟩ := start_spec h.armed (h.fits j).1
  refine ⟨{ r with timers := t }, ?_, ⟨key', hA, hsame.fits h.fits⟩, fun i => ?_⟩
  · show (rtTimerStart r.timers j).map _ = _
    rw [ht]
    rfl
  · refine alarm_of_sameElse hsame (fun k hk => ?_) ?_
    · rw [hlist, mem_insertPrio_erase]
      exact or_iff_right hk
    · rw [due_start hA hkey hlist]
      rfl

theorem step_stop (h : TimerInv key r) (j : ι) :
    ∃ t, timersStep r (.stop j) = some t ∧ StepsTo r (.stop j) t := by
  obtain ⟨hA, hmem, hsame⟩ := stop_spec h.armed j
  refine ⟨_, rfl, ⟨key, hA, hsame.fits h.fits⟩, fun i => ?_⟩
  refine alarm_of_sameElse hsame (fun k hk => (hmem k).trans (and_iff_right hk)) ?_
  rw [due_of_not_mem fun hj => ((hmem j).mp hj).1 rfl]
  rfl

theorem step_detach (h : TimerInv key r) (j : ι) :
    ∃ t, timersStep r (.detach j) = some t ∧ StepsTo r (.detach j) t := by
  refine ⟨_, rfl, ⟨key, armed_remove h.armed j, h.fits⟩, fun i => ?_⟩
  refine alarm_of_sameElse (sameElse_remove r.timers j) (fun k hk => List.mem_erase_of_ne hk) ?_
  rw [due_of_not_mem (not_mem_remove h.armed j)]
  rfl

/-- a change of the time or of the flag of a timer -/
theorem edit_spec (h : TimerInv key r) {j : ι} {f : Timer → Timer}
    (hto : ∀ t, (f t).timeoutTick = t.timeoutTick) (hact : ∀ t, (f t).activated = t.activated)
    (hfit : (f (r.timers.timer j)).Fits) :
    TimerInv key { r with timers := r.timers.edit j f } ∧
      ∀ i, ({ r with timers := r.timers.edit j f } : TimerRun ι).alarm i =
        if j = i then
          { r.alarm i with
            delay := (f (r.timers.timer j)).initTick.toNat
            again := (f (r.timers.timer j)).periodic }
        else r.alarm i := by
  refine ⟨⟨armed_set h.armed hto hact, fun i => ?_⟩, fun i => ?_⟩
  · by_cases hij : i = j
    · subst hij
      rw [edit_self]
      exact hfit
    · rw [edit_of_ne _ _ hij]
      exact h.fits i
  · unfold TimerRun.alarm
    simp only [due_edit hto]
    by_cases hij : j = i
    · subst hij
      simp only [edit_self, if_true]
    · simp only [edit_of_ne _ _ (Ne.symm hij), if_neg hij]

theorem step_setTime (h : TimerInv key r) (j : ι) (time : BitVec 32)
    (hfit : ({ r.timers.timer j with initTick := time } : Timer).Fits) :
    ∃ t, timersStep r (.setTime j time) = some t ∧ StepsTo r (.setTime j time) t := by
  obtain ⟨ht, halarm⟩ := edit_spec h (f := fun t => { t with initTick := time }) (fun _ => rfl)
    (fun _ => rfl) hfit
  refine ⟨_, rfl, ⟨key, ht⟩, fun i => (halarm i).trans ?_⟩
  rw [TimerAct.alarmAct]
  split
  next hij =>
    subst hij
    rfl
  next => rfl

theorem step_setPeriodic (h : TimerInv key r) (j : ι) (b : Bool)
    (hfit : ({ r.timers.timer j with periodic := b } : Timer).Fits) :
    ∃ t, timersStep r (.setPeriodic j b) = some t ∧ StepsTo r (.setPeriodic j b) t := by
  obtain ⟨ht, halarm⟩ := edit_spec h (f := fun t => { t with periodic := b }) (fun _ => rfl)
    (fun _ => rfl) hfit
  refine ⟨_, rfl, ⟨key, ht⟩, fun i => (halarm i).trans ?_⟩
  rw [TimerAct.alarmAct]
  split
  next hij =>
    subst hij
    rfl
  next => rfl

/-- the calls that one `rt_timer_check` makes -/
theorem foldlM_called (n : Nat) {l : List ι} (hl : l.Nodup) (c : ι → List Nat) :
    l.foldlM (fun c i => some (Function.update c i (n :: c i))) c =
      some fun i => if i ∈ l then n :: c i else c i := by
  induction l generalizing c with
  | nil => exact congrArg some (funext fun i => (if_neg List.not_mem_nil).symm)
  | cons j l ih =>
    obtain ⟨hj, hl'⟩ := List.nodup_cons.mp hl
    rw [List.foldlM_cons]
    refine (ih hl' _).trans (congrArg some (funext fun i => ?_))
    by_cases hij : i = j
    · subst hij
      rw [if_neg hj, if_pos List.mem_cons_self, Function.update_self]
    · rw [Function.update_of_ne hij]
      simp only [List.mem_cons, hij, false_or]

theorem step_tick (h : TimerInv key r) :
    ∃ t, timersStep r .tick = some t ∧ StepsTo r .tick t := by
  obtain ⟨t, key', hc, hrun⟩ := tick_spec h.armed h.fits
    (fun i c => some (Function.update c i ((r.now + 1) :: c i)))
  have hnodup : (expired (r.now + 1) key r.timers.list).Nodup := h.armed.nodup.filter _
  have hcalls := hrun r.called
  rw [foldlM_called (r.now + 1) hnodup r.called] at hcalls
  refine ⟨_, congrArg (Option.map _) hcalls, ⟨key', hc.armed, hc.fits h.fits⟩, fun i => ?_⟩
  show _ = Alarm.tick _
  unfold TimerRun.alarm Alarm.tick
  simp only [due_checked h.armed hc, mem_expired_iff h.armed, hc.initTick, hc.periodic]
  by_cases hexp : r.timers.due r.now i = some (r.now + 1)
  · rw [if_pos hexp, if_pos hexp, if_pos hexp]
    cases hper : (r.timers.timer i).periodic with
    | true =>
      rw [ring_again rfl]
      rfl
    | false =>
      rw [ring_once rfl]
      rfl
  · rw [if_neg hexp, if_neg hexp, if_neg hexp]

/-- **One step of the timers is one step of each alarm.** -/
theorem timer_step {a : TimerAct ι} (h : TimerInv key r)
    (hf : ∀ t, timersStep r a = some t → a.Fits r t) :
    ∃ t, timersStep r a = some t ∧ StepsTo r a t := by
  cases a with
  | start i => exact step_start h i
  | stop i => exact step_stop h i
  | detach i => exact step_detach h i
  | setTime i time => exact step_setTime h i time (hf _ rfl)
  | setPeriodic i b => exact step_setPeriodic h i b (hf _ rfl)
  | tick => exact step_tick h

/-- no timer is started -/
theorem armed_init (key : ι → Nat) (timer : ι → Timer) : Armed 0 0 key ⟨0, [], timer⟩ :=
  ⟨rfl, ⟨Nat.le_refl _, Nat.le_succ _⟩, List.nodup_nil, List.Pairwise.nil,
    fun _ hi => (List.not_mem_nil hi).elim, fun _ hi => (List.not_mem_nil hi).elim,
    fun _ hi => (List.not_mem_nil hi).elim⟩

theorem timerInv_init {time : ι → BitVec 32} {periodic : ι → Bool}
    (h : ∀ i, (rtTimerInit (time i) (periodic i)).Fits) (key : ι → Nat) :
    TimerInv key (rtSystemTimerInit time periodic) :=
  ⟨armed_init key _, h⟩

theorem timer_run (as : List (TimerAct ι)) :
    ∀ (s : TimerRun ι) (key : ι → Nat), TimerInv key s → Along timersStep TimerAct.Fits s as →
      ∃ t, run timersStep s as = some t ∧
        ∀ i, t.alarm i = (as.map fun a => a.alarmAct i).foldl Alarm.step (s.alarm i) := by
  induction as with
  | nil => exact fun s _ _ _ => ⟨s, rfl, fun _ => rfl⟩
  | cons a as ih =>
    intro s key h hf
    obtain ⟨u, hu, ⟨key', hinv⟩, halarm⟩ := timer_step h fun t ht => (hf t ht).1
    obtain ⟨t, ht, hrun⟩ := ih u key' hinv (hf u hu).2
    refine ⟨t, (run_cons_some hu as).trans ht, fun i => ?_⟩
    rw [hrun, halarm, List.map_cons, List.foldl_cons]

/-- **Each timer is an alarm on its own.**  Whatever is started, stopped and set in whatever order,
no call hangs, and each timer is at every moment what the alarm is to which the acts on this timer
and the ticks have happened: it calls its timeout function at exactly these ticks.  Neither the other
timers of the list nor the wrap of the 32-bit tick shows. -/
theorem timer_alone {time : ι → BitVec 32} {periodic : ι → Bool}
    (hfit : ∀ i, (rtTimerInit (time i) (periodic i)).Fits) (as : List (TimerAct ι))
    (h : Along timersStep TimerAct.Fits (rtSystemTimerInit time periodic) as) :
    ∃ t, run timersStep (rtSystemTimerInit time periodic) as = some t ∧
      ∀ i, t.alarm i = (as.map fun a => a.alarmAct i).foldl Alarm.step
        ((rtSystemTimerInit time periodic).alarm i) :=
  timer_run as _ (fun _ => 0) (timerInv_init hfit _) h

end

/-- two timers, one of them periodic -/
theorem timer_alone_pair :
    ∃ t, run timersStep (rtSystemTimerInit (fun b : Bool => if b then 2 else 1) fun b => !b)
        [.start true, .start false, .tick, .stop false, .tick, .start false, .tick] = some t ∧
      ∀ i, t.alarm i = ([TimerAct.start true, .start false, .tick, .stop false, .tick, .start false,
        .tick].map fun a => a.alarmAct i).foldl Alarm.step
          ((rtSystemTimerInit (fun b : Bool => if b then 2 else 1) fun b => !b).alarm i) :=
  timer_alone (by decide) _ (by decide)

end ENV

import Enviroment.Kernel.Types
import Enviroment.Lib.MarkedQueues

/-!
# The scheduler (`scheduler.c`)

The threads that are ready stand in one list for each priority, and a word marks the lists in use;
the list to run from is found by the lowest bit of that word.

* `rtFfs`                `__rt_ffs`, byte by byte through a table;
* `rtScheduleInsertThread`, `rtScheduleRemoveThread`, `rtSchedule`   each with interrupts disabled;
* `SchedInv`             a thread stands in the list of its priority exactly if it is ready;
* `schedule_cases`       what `rt_schedule` can do;
* `schedule_spec`        it always finds a thread, and afterwards no thread that is ready is more
                         urgent than the current one.
-/

set_option linter.unusedSectionVars false

namespace ENV

open MarkedQueues

/-! ## `__rt_ffs` -/

def lowestBitBitmap : List Nat := [
  0, 0, 1, 0, 2, 0, 1, 0, 3, 0, 1, 0, 2, 0, 1, 0,
  4, 0, 1, 0, 2, 0, 1, 0, 3, 0, 1, 0, 2, 0, 1, 0,
  5, 0, 1, 0, 2, 0, 1, 0, 3, 0, 1, 0, 2, 0, 1, 0,
  4, 0, 1, 0, 2, 0, 1, 0, 3, 0, 1, 0, 2, 0, 1, 0,
  6, 0, 1, 0, 2, 0, 1, 0, 3, 0, 1, 0, 2, 0, 1, 0,
  4, 0, 1, 0, 2, 0, 1, 0, 3, 0, 1, 0, 2, 0, 1, 0,
  5, 0, 1, 0, 2, 0, 1, 0, 3, 0, 1, 0, 2, 0, 1, 0,
  4, 0, 1, 0, 2, 0, 1, 0, 3, 0, 1, 0, 2, 0, 1, 0,
  7, 0, 1, 0, 2, 0, 1, 0, 3, 0, 1, 0, 2, 0, 1, 0,
  4, 0, 1, 0, 2, 0, 1, 0, 3, 0, 1, 0, 2, 0, 1, 0,
  5, 0, 1, 0, 2, 0, 1, 0, 3, 0, 1, 0, 2, 0, 1, 0,
  4, 0, 1, 0, 2, 0, 1, 0, 3, 0, 1, 0, 2, 0, 1, 0,
  6, 0, 1, 0, 2, 0, 1, 0, 3, 0, 1, 0, 2, 0, 1, 0,
  4, 0, 1, 0, 2, 0, 1, 0, 3, 0, 1, 0, 2, 0, 1, 0,
  5, 0, 1, 0, 2, 0, 1, 0, 3, 0, 1, 0, 2, 0, 1, 0,
  4, 0, 1, 0, 2, 0, 1, 0, 3, 0, 1, 0, 2, 0, 1, 0]

/-- `__rt_ffs(value)` -/
def rtFfs (value : BitVec 32) : Nat :=
  if value = 0 then 0
  else if value &&& 0xff ≠ 0 then lowestBitBitmap.getD (value &&& 0xff).toNat 0 + 1
  else if value &&& 0xff00 ≠ 0 then lowestBitBitmap.getD ((value &&& 0xff00) >>> 8).toNat 0 + 9
  else if value &&& 0xff0000 ≠ 0 then
    lowestBitBitmap.getD ((value &&& 0xff0000) >>> 16).toNat 0 + 17
  else lowestBitBitmap.getD ((value &&& 0xff000000) >>> 24).toNat 0 + 25

theorem isFirst_lowestBitBitmap : ∀ b < 256, b ≠ 0 → IsFirst b (lowestBitBitmap.getD b 0) := by
  decide +kernel

/-- the byte of a word under a mask -/
theorem toNat_and_mask {v mask : BitVec 32} {k : Nat} (hmask : mask.toNat = 255 <<< k) :
    (v &&& mask ≠ 0 ↔ (v.toNat >>> k) % 256 ≠ 0) ∧
      ((v &&& mask) >>> k).toNat = (v.toNat >>> k) % 256 := by
  have h : (v &&& mask).toNat = ((v.toNat >>> k) % 256) <<< k := by
    rw [BitVec.toNat_and, hmask, and_byte]
  have hs : ((v &&& mask) >>> k).toNat = (v.toNat >>> k) % 256 := by
    rw [BitVec.toNat_ushiftRight, h, Nat.shiftLeft_shiftRight]
  refine ⟨not_congr ⟨fun e => ?_, fun e => ?_⟩, hs⟩
  · rw [← hs, e]
    simp
  · apply BitVec.eq_of_toNat_eq
    rw [h, e, Nat.zero_shiftLeft]
    rfl

/-- **`__rt_ffs`** counts from one; it finds the lowest bit. -/
theorem rtFfs_spec {v : BitVec 32} (hv : v ≠ 0) : IsFirst v.toNat (rtFfs v - 1) := by
  have h0 := @toNat_and_mask v 0xff 0 (by decide)
  have h1 := @toNat_and_mask v 0xff00 8 (by decide)
  have h2 := @toNat_and_mask v 0xff0000 16 (by decide)
  have h3 := @toNat_and_mask v 0xff000000 24 (by decide)
  have hbyte := fun k => @isFirst_byte (lowestBitBitmap.getD · 0) isFirst_lowestBitBitmap v.toNat k
  have hlow0 : v.toNat % 2 ^ 0 = 0 := Nat.mod_one _
  rw [BitVec.ushiftRight_zero] at h0
  unfold rtFfs
  rw [if_neg hv]
  by_cases hb0 : v &&& 0xff = 0
  · have hlow1 := mod_byte hlow0 (not_not.mp (mt h0.1.mpr (not_not.mpr hb0)))
    rw [if_neg (not_not.mpr hb0)]
    by_cases hb1 : v &&& 0xff00 = 0
    · have hlow2 := mod_byte hlow1 (not_not.mp (mt h1.1.mpr (not_not.mpr hb1)))
      rw [if_neg (not_not.mpr hb1)]
      by_cases hb2 : v &&& 0xff0000 = 0
      · have hlow3 := mod_byte hlow2 (not_not.mp (mt h2.1.mpr (not_not.mpr hb2)))
        rw [if_neg (not_not.mpr hb2), h3.2]
        refine hbyte 24 hlow3 fun he => hv ?_
        have hall := mod_byte hlow3 he
        rw [Nat.mod_eq_of_lt v.isLt] at hall
        exact BitVec.eq_of_toNat_eq hall
      · rw [if_pos hb2, h2.2]
        exact hbyte 16 hlow2 (h2.1.mp hb2)
    · rw [if_pos hb1, h1.2]
      exact hbyte 8 hlow1 (h1.1.mp hb1)
  · rw [if_pos hb0, h0.2]
    exact hbyte 0 hlow0 (h0.1.mp hb0)

/-! ## the ready threads -/

/-- `thread->stat & RT_THREAD_STAT_MASK` -/
inductive ThreadStat where
  | init
  | ready
  | suspend
  | running
  | close
deriving DecidableEq

/-- `struct rt_thread`, as far as scheduling needs it -/
structure Thread where
  stat : ThreadStat
  initPriority : Fin 32
  /-- a lower number is more urgent -/
  currentPriority : Fin 32
  numberMask : BitVec 32
  initTick : BitVec 32
  remainingTick : BitVec 32
  error : RtErr

@[ext] structure Sched (ι : Type*) where
  thread : ι → Thread
  /-- `rt_thread_priority_table` -/
  table : Fin 32 → List ι
  /-- `rt_thread_ready_priority_group` -/
  group : BitVec 32
  /-- `rt_current_thread` -/
  current : Option ι
  /-- `rt_scheduler_lock_nest` -/
  lockNest : BitVec 16

section
variable {ι : Type*} [DecidableEq ι]

/-- `rt_system_scheduler_init()` -/
def rtSystemSchedulerInit (thread : ι → Thread) : Sched ι := ⟨thread, fun _ => [], 0, none, 0⟩

def Sched.edit (s : Sched ι) (i : ι) (f : Thread → Thread) : Sched ι :=
  { s with thread := Function.update s.thread i (f (s.thread i)) }

/-- `thread->stat = x` -/
def Sched.mark (s : Sched ι) (i : ι) (x : ThreadStat) : Sched ι :=
  s.edit i fun t => { t with stat := x }

/-- `rt_schedule_insert_thread(thread)` -/
def rtScheduleInsertThread (s : Sched ι) (i : ι) : Sched ι :=
  if s.current = some i then s.mark i .running
  else
    let s := s.mark i .ready
    let p := (s.thread i).currentPriority
    { s with
      table := Function.update s.table p (s.table p ++ [i])
      group := s.group ||| (s.thread i).numberMask }

/-- `rt_list_remove(&thread->tlist)`, if it is in one of these lists -/
def Sched.unlink (s : Sched ι) (i : ι) : Sched ι := { s with table := fun p => (s.table p).erase i }

/-- `rt_schedule_remove_thread(thread)` -/
def rtScheduleRemoveThread (s : Sched ι) (i : ι) : Sched ι :=
  let s := s.unlink i
  if s.table (s.thread i).currentPriority = [] then
    { s with group := s.group &&& ~~~(s.thread i).numberMask }
  else s

/-- `_get_highest_priority_thread(&highest_prio)`; `none` if it takes the head of an empty list for
a thread -/
def getHighestPriorityThread (s : Sched ι) : Option (ι × Nat) :=
  let p := rtFfs s.group - 1
  if h : p < 32 then (s.table ⟨p, h⟩).head?.map fun i => (i, p) else none

/-- `rt_schedule()`; `none` if there is no thread to switch from or to -/
def rtSchedule (s : Sched ι) : Option (Sched ι) :=
  if s.lockNest = 0 then
    if s.group ≠ 0 then
      s.current.bind fun c =>
        (getHighestPriorityThread s).bind fun (top, highest) =>
          -- the thread to run, and whether the current one goes back to the ready ones
          let (toThread, need) :=
            if (s.thread c).stat = .running then
              if (s.thread c).currentPriority.val < highest then (c, false) else (top, true)
            else (top, false)
          if toThread ≠ c then
            let s := { s with current := some toThread }
            let s := if need then rtScheduleInsertThread s c else s
            some ((rtScheduleRemoveThread s toThread).mark toThread .running)
          else some ((rtScheduleRemoveThread s c).mark c .running)
    else some s
  else some s

/-- `rt_system_scheduler_start()` -/
def rtSystemSchedulerStart (s : Sched ι) : Option (Sched ι) :=
  (getHighestPriorityThread s).map fun (i, _) =>
    (rtScheduleRemoveThread { s with current := some i } i).mark i .running

/-- `rt_enter_critical()` -/
def rtEnterCritical (s : Sched ι) : Sched ι := { s with lockNest := s.lockNest + 1 }

/-- `rt_exit_critical()` -/
def rtExitCritical (s : Sched ι) : Option (Sched ι) :=
  let s := { s with lockNest := s.lockNest - 1 }
  if s.lockNest.sle 0 then
    let s := { s with lockNest := 0 }
    if s.current.isSome then rtSchedule s else some s
  else some s

/-- the priority of a thread and what goes with it -/
def Sched.setPriority (s : Sched ι) (i : ι) (p : Fin 32) : Sched ι :=
  s.edit i fun t => { t with currentPriority := p, numberMask := 1#32 <<< p.val }

/-- `rt_thread_control(thread, RT_THREAD_CTRL_CHANGE_PRIORITY, &p)` -/
def rtThreadChangePriority (s : Sched ι) (i : ι) (p : Fin 32) : Sched ι :=
  if (s.thread i).stat = .ready then
    rtScheduleInsertThread ((rtScheduleRemoveThread s i).setPriority i p) i
  else s.setPriority i p

/-- the time slice in `rt_tick_increase` -/
def rtTickSlice (s : Sched ι) : Option (Sched ι) :=
  s.current.bind fun c =>
    let s := s.edit c fun t => { t with remainingTick := t.remainingTick - 1 }
    if (s.thread c).remainingTick = 0 then
      rtSchedule (s.edit c fun t => { t with remainingTick := t.initTick })
    else some s

/-! ## what stands where -/

/-- all of a thread but `stat` -/
def Thread.body (t : Thread) : Thread := { t with stat := .init }

/-- started, and not at its end -/
def Thread.Live (t : Thread) : Prop := t.stat ≠ .init ∧ t.stat ≠ .close

/-- the lists and the word agree with the threads -/
structure Queued (s : Sched ι) : Prop where
  marks : Marks s.group s.table
  mem : ∀ i p, i ∈ s.table p ↔ (s.thread i).stat = .ready ∧ (s.thread i).currentPriority = p
  nodup : ∀ p, (s.table p).Nodup
  mask : ∀ i, (s.thread i).Live →
    (s.thread i).numberMask = 1#32 <<< (s.thread i).currentPriority.val

structure SchedInv (s : Sched ι) : Prop extends Queued s where
  running : ∀ i, (s.thread i).stat = .running → s.current = some i
  current : ∀ c, s.current = some c → (s.thread c).stat ≠ .ready ∧ (s.thread c).stat ≠ .init

variable {s : Sched ι} {c i j : ι} {x : ThreadStat}

@[simp] theorem thread_edit_self (f : Thread → Thread) : (s.edit i f).thread i = f (s.thread i) :=
  Function.update_self ..

theorem thread_edit_of_ne {j : ι} (f : Thread → Thread) (h : j ≠ i) :
    (s.edit i f).thread j = s.thread j :=
  Function.update_of_ne h ..

theorem edit_edit (f g : Thread → Thread) : (s.edit i f).edit i g = s.edit i fun t => g (f t) := by
  unfold Sched.edit
  dsimp only
  rw [Function.update_self, Function.update_idem]

theorem edit_eq_self {f : Thread → Thread} (h : f (s.thread i) = s.thread i) : s.edit i f = s := by
  unfold Sched.edit
  rw [h, Function.update_eq_self]

@[simp] theorem table_edit (f : Thread → Thread) : (s.edit i f).table = s.table := rfl
@[simp] theorem group_edit (f : Thread → Thread) : (s.edit i f).group = s.group := rfl
@[simp] theorem current_edit (f : Thread → Thread) : (s.edit i f).current = s.current := rfl
@[simp] theorem lockNest_edit (f : Thread → Thread) : (s.edit i f).lockNest = s.lockNest := rfl

@[simp] theorem stat_mark_self : ((s.mark i x).thread i).stat = x := by
  rw [Sched.mark, thread_edit_self]

theorem thread_mark_of_ne {j : ι} (h : j ≠ i) : (s.mark i x).thread j = s.thread j :=
  thread_edit_of_ne _ h

@[simp] theorem body_mark (j : ι) : ((s.mark i x).thread j).body = (s.thread j).body := by
  by_cases h : j = i
  · subst h
    rw [Sched.mark, thread_edit_self]
    rfl
  · rw [thread_mark_of_ne h]

theorem priority_of_body {t u : Thread} (h : t.body = u.body) :
    t.currentPriority = u.currentPriority :=
  (congrArg Thread.currentPriority h :)

theorem mask_of_body {t u : Thread} (h : t.body = u.body) : t.numberMask = u.numberMask :=
  (congrArg Thread.numberMask h :)

@[simp] theorem priority_mark (j : ι) :
    ((s.mark i x).thread j).currentPriority = (s.thread j).currentPriority :=
  priority_of_body (body_mark j)

@[simp] theorem mask_mark (j : ι) : ((s.mark i x).thread j).numberMask = (s.thread j).numberMask :=
  mask_of_body (body_mark j)

/-- a thread that is not ready stands in none of the lists -/
theorem Queued.unlink_eq (h : Queued s) (hi : (s.thread i).stat ≠ .ready) : s.unlink i = s := by
  have : (fun p => (s.table p).erase i) = s.table := funext fun p =>
    List.erase_of_not_mem fun hm => hi ((h.mem i p).mp hm).1
  unfold Sched.unlink
  rw [this]

/-- a thread that is not ready may be marked as what is not ready either -/
theorem Queued.mark (h : Queued s) (hi : (s.thread i).stat ≠ .ready) (hx : x ≠ .ready)
    (hlive : (s.thread i).Live ∨ x = .close) : Queued (s.mark i x) := by
  refine ⟨h.marks, fun j p => (h.mem j p).trans ?_, h.nodup, fun j hj => ?_⟩
  · rw [priority_mark]
    refine and_congr_left' ?_
    by_cases hji : j = i
    · subst hji
      rw [stat_mark_self]
      exact iff_of_false hi hx
    · rw [thread_mark_of_ne hji]
  · rw [mask_mark, priority_mark]
    by_cases hji : j = i
    · subst hji
      refine h.mask j (hlive.resolve_right ?_)
      rintro rfl
      exact hj.2 stat_mark_self
    · rw [thread_mark_of_ne hji] at hj
      exact h.mask j hj

theorem insert_current (h : s.current = some i) : rtScheduleInsertThread s i = s.mark i .running :=
  if_pos h

theorem insert_eq (h : s.current ≠ some i) :
    rtScheduleInsertThread s i =
      { s.mark i .ready with
        table := Function.update s.table (s.thread i).currentPriority
          (s.table (s.thread i).currentPriority ++ [i])
        group := s.group ||| (s.thread i).numberMask } := by
  rw [rtScheduleInsertThread, if_neg h]
  simp only [priority_mark, mask_mark]
  rfl

/-- **`rt_schedule_insert_thread`**: the thread is ready. -/
theorem Queued.insert (h : Queued s) (hc : s.current ≠ some i) (hi : (s.thread i).stat ≠ .ready)
    (hlive : (s.thread i).Live) : Queued (rtScheduleInsertThread s i) := by
  set p := (s.thread i).currentPriority with hp
  rw [insert_eq hc, ← hp]
  refine ⟨?_, fun j q => ?_, fun q => ?_, fun j hj => ?_⟩
  · show Marks (s.group ||| (s.thread i).numberMask) _
    rw [h.mask i hlive]
    refine h.marks.set ?_ fun q hq => Function.update_of_ne hq ..
    show Function.update s.table p (s.table p ++ [i]) p ≠ []
    rw [Function.update_self]
    exact List.append_ne_nil_of_right_ne_nil _ (List.cons_ne_nil _ _)
  · show j ∈ Function.update s.table p (s.table p ++ [i]) q ↔
      ((s.mark i .ready).thread j).stat = .ready ∧ ((s.mark i .ready).thread j).currentPriority = q
    rw [priority_mark]
    by_cases hji : j = i
    · subst hji
      rw [stat_mark_self, ← hp]
      by_cases hq : q = p
      · subst hq
        rw [Function.update_self]
        exact iff_of_true (List.mem_append_right _ List.mem_cons_self) ⟨rfl, rfl⟩
      · rw [Function.update_of_ne hq]
        exact iff_of_false (fun hj => hi ((h.mem j q).mp hj).1) fun hj => hq hj.2.symm
    · rw [thread_mark_of_ne hji, ← h.mem]
      by_cases hq : q = p
      · subst hq
        rw [Function.update_self, List.mem_append, List.mem_singleton]
        exact or_iff_left hji
      · rw [Function.update_of_ne hq]
  · show (Function.update s.table p (s.table p ++ [i]) q).Nodup
    by_cases hq : q = p
    · subst hq
      rw [Function.update_self]
      exact List.nodup_append.mpr ⟨h.nodup _, List.pairwise_singleton _ i, fun a ha b hb e =>
        hi ((h.mem i _).mp (List.mem_singleton.mp hb ▸ e ▸ ha)).1⟩
    · rw [Function.update_of_ne hq]
      exact h.nodup q
  · show ((s.mark i .ready).thread j).numberMask = _
    rw [mask_mark]
    show _ = 1#32 <<< ((s.mark i .ready).thread j).currentPriority.val
    rw [priority_mark]
    by_cases hji : j = i
    · exact h.mask j (hji ▸ hlive)
    · have hj' : ((s.mark i .ready).thread j).Live := hj
      rw [thread_mark_of_ne hji] at hj'
      exact h.mask j hj'

theorem remove_eq : rtScheduleRemoveThread s i =
    { s with
      table := fun p => (s.table p).erase i
      group :=
        if (s.table (s.thread i).currentPriority).erase i = [] then
          s.group &&& ~~~(s.thread i).numberMask
        else s.group } := by
  unfold rtScheduleRemoveThread Sched.unlink
  by_cases h : (s.table (s.thread i).currentPriority).erase i = []
  · simp only [if_pos h]
  · simp only [if_neg h]

@[simp] theorem thread_remove : (rtScheduleRemoveThread s i).thread = s.thread := by
  rw [remove_eq]

@[simp] theorem current_remove : (rtScheduleRemoveThread s i).current = s.current := by
  rw [remove_eq]

@[simp] theorem lockNest_remove : (rtScheduleRemoveThread s i).lockNest = s.lockNest := by
  rw [remove_eq]

/-- **`rt_schedule_remove_thread`**, and the thread is marked as not ready. -/
theorem Queued.remove (h : Queued s) (hlive : (s.thread i).Live) (hx : x ≠ .ready) :
    Queued ((rtScheduleRemoveThread s i).mark i x) := by
  have herase : ∀ q, q ≠ (s.thread i).currentPriority → (s.table q).erase i = s.table q :=
    fun q hq => List.erase_of_not_mem fun hm => hq ((h.mem i q).mp hm).2.symm
  rw [remove_eq]
  refine ⟨?_, fun j q => ?_, fun q => (h.nodup q).erase i, fun j hj => ?_⟩
  · show Marks (ite _ _ _) fun q => (s.table q).erase i
    rw [h.mask i hlive]
    split
    next hnil => exact h.marks.clear hnil herase
    next hne =>
      refine h.marks.keep fun q => ?_
      by_cases hq : q = (s.thread i).currentPriority
      · rw [hq]
        exact iff_of_false hne fun e => hne (by rw [e]; rfl)
      · rw [herase q hq]
  · rw [priority_mark]
    show j ∈ (s.table q).erase i ↔ _
    rw [(h.nodup q).mem_erase_iff]
    by_cases hji : j = i
    · subst hji
      rw [stat_mark_self]
      exact iff_of_false (fun h' => h'.1 rfl) fun h' => hx h'.1
    · rw [thread_mark_of_ne hji]
      exact (and_iff_right hji).trans (h.mem j q)
  · rw [mask_mark, priority_mark]
    by_cases hji : j = i
    · exact h.mask j (hji ▸ hlive)
    · rw [thread_mark_of_ne hji] at hj
      exact h.mask j hj

/-! ## `rt_schedule` -/

def Thread.Ready (t : Thread) : Prop := t.stat = .ready
def Thread.Running (t : Thread) : Prop := t.stat = .running

theorem Thread.Ready.live {t : Thread} (h : t.Ready) : t.Live := by
  unfold Thread.Live
  rw [h]
  exact ⟨by decide, by decide⟩

theorem Thread.Running.live {t : Thread} (h : t.Running) : t.Live := by
  unfold Thread.Live
  rw [h]
  exact ⟨by decide, by decide⟩

theorem Queued.group_eq_zero_iff (h : Queued s) : s.group = 0 ↔ ∀ i, ¬ (s.thread i).Ready := by
  rw [h.marks.eq_zero_iff]
  constructor
  · intro he i hi
    have := (h.mem i _).mpr ⟨hi, rfl⟩
    rw [he] at this
    exact List.not_mem_nil this
  · intro hr p
    exact List.eq_nil_iff_forall_not_mem.mpr fun i hi => hr i ((h.mem i p).mp hi).1

/-- **`_get_highest_priority_thread`** finds the first thread of the most urgent list in use. -/
theorem Queued.highest (h : Queued s) (hg : s.group ≠ 0) :
    ∃ j, getHighestPriorityThread s = some (j, (s.thread j).currentPriority.val) ∧
      (s.table (s.thread j).currentPriority).head? = some j ∧ (s.thread j).Ready ∧
      ∀ i, (s.thread i).Ready → (s.thread j).currentPriority ≤ (s.thread i).currentPriority := by
  obtain ⟨hw, hne, hlow⟩ := h.marks.first (rtFfs_spec hg)
  obtain ⟨j, l, hl⟩ := List.exists_cons_of_ne_nil hne
  obtain ⟨hready, hp⟩ := (h.mem j _).mp (hl ▸ List.mem_cons_self)
  refine ⟨j, ?_, by rw [hp, hl]; rfl, hready, fun i hi => ?_⟩
  · unfold getHighestPriorityThread
    rw [dif_pos hw, hl, hp]
    rfl
  · rw [hp]
    by_contra hlt
    have hi' := (h.mem i _).mpr ⟨hi, rfl⟩
    rw [hlow _ (not_le.mp hlt)] at hi'
    exact List.not_mem_nil hi'

/-- the switch from the current thread `c` to `j` -/
def Sched.switch (s : Sched ι) (c j : ι) : Sched ι :=
  let t : Sched ι := { s with current := some j }
  let t := if (s.thread c).stat = .running then rtScheduleInsertThread t c else t
  (rtScheduleRemoveThread t j).mark j .running

/-- the current thread is taken out of lists in which it does not stand -/
theorem Queued.remove_running (h : Queued s) {c : ι} (hc : (s.thread c).Running)
    (hnil : ∀ i, i ∉ s.table (s.thread c).currentPriority) :
    (rtScheduleRemoveThread s c).mark c .running = s := by
  have hout : ∀ p, (s.table p).erase c = s.table p := fun p =>
    congrFun (congrArg Sched.table (h.unlink_eq (i := c) fun e => (by cases hc.symm.trans e))) p
  have hempty : s.table (s.thread c).currentPriority = [] := List.eq_nil_iff_forall_not_mem.mpr hnil
  have hthread : Function.update s.thread c { s.thread c with stat := .running } = s.thread := by
    rw [← hc]
    exact Function.update_eq_self c s.thread
  rw [remove_eq]
  simp only [hout, hempty]
  rw [h.mask c hc.live, h.marks.clear_eq hempty]
  unfold Sched.mark Sched.edit
  simp only [hthread, ite_self]

/-- **What `rt_schedule` can do**: nothing, if the scheduler is locked, if nobody is ready or if the
current thread is more urgent than whoever is; or it switches to the first of the most urgent ones. -/
theorem schedule_cases (h : SchedInv s) {c : ι} (hc : s.current = some c) :
    ((s.lockNest ≠ 0 ∨ ∀ i, ¬ (s.thread i).Ready) ∧ rtSchedule s = some s) ∨
    (s.lockNest = 0 ∧ (s.thread c).Running ∧
      (∀ i, (s.thread i).Ready → (s.thread c).currentPriority < (s.thread i).currentPriority) ∧
      rtSchedule s = some s) ∨
    (s.lockNest = 0 ∧ ∃ j, (s.table (s.thread j).currentPriority).head? = some j ∧
      (s.thread j).Ready ∧ j ≠ c ∧
      (∀ i, (s.thread i).Ready → (s.thread j).currentPriority ≤ (s.thread i).currentPriority) ∧
      ((s.thread c).Running → (s.thread j).currentPriority ≤ (s.thread c).currentPriority) ∧
      rtSchedule s = some (s.switch c j)) := by
  by_cases hl : s.lockNest = 0
  case neg => exact Or.inl ⟨Or.inl hl, if_neg hl⟩
  by_cases hg : s.group = 0
  case pos =>
    refine Or.inl ⟨Or.inr (h.group_eq_zero_iff.mp hg), ?_⟩
    rw [rtSchedule, if_pos hl, if_neg (not_not.mpr hg)]
  obtain ⟨j, hj, hhead, hready, hmin⟩ := h.highest hg
  have hjc : j ≠ c := fun e => (h.current c hc).1 (e ▸ hready)
  refine Or.inr ?_
  unfold rtSchedule
  rw [if_pos hl, if_pos hg, hc, Option.bind_some, hj, Option.bind_some]
  by_cases hrun : (s.thread c).stat = .running
  · by_cases hlt : (s.thread c).currentPriority.val < (s.thread j).currentPriority.val
    · refine Or.inl ⟨hl, hrun, fun i hi => Nat.lt_of_lt_of_le hlt (hmin i hi), ?_⟩
      simp only [if_pos hrun, if_pos hlt, ne_eq, not_true, if_false]
      refine congrArg some (h.remove_running hrun fun i hi => ?_)
      exact Nat.not_lt.mpr (hmin i ((h.mem i _).mp hi).1) (((h.mem i _).mp hi).2 ▸ hlt)
    · refine Or.inr ⟨hl, j, hhead, hready, hjc, hmin, fun _ => Nat.not_lt.mp hlt, ?_⟩
      simp only [if_pos hrun, if_neg hlt, if_pos hjc, if_true, Sched.switch]
  · refine Or.inr ⟨hl, j, hhead, hready, hjc, hmin, fun h' => absurd h' hrun, ?_⟩
    simp only [if_neg hrun, if_pos hjc, Sched.switch]
    rfl

theorem Queued.setCurrent (h : Queued s) (c : Option ι) : Queued { s with current := c } :=
  ⟨h.marks, h.mem, h.nodup, h.mask⟩

/-- what a switch from `c` to `j` leaves -/
structure Switched (s : Sched ι) (c j : ι) (t : Sched ι) : Prop where
  current : t.current = some j
  lockNest : t.lockNest = s.lockNest
  body : ∀ i, (t.thread i).body = (s.thread i).body
  next : (t.thread j).Running
  last : (t.thread c).stat = if (s.thread c).stat = .running then .ready else (s.thread c).stat
  others : ∀ i, i ≠ c → i ≠ j → (t.thread i).stat = (s.thread i).stat

theorem switched (hjc : j ≠ c) : Switched s c j (s.switch c j) := by
  unfold Sched.switch
  dsimp only
  by_cases hrun : (s.thread c).stat = .running
  · rw [if_pos hrun, insert_eq fun e => hjc (Option.some.inj e)]
    refine ⟨?_, ?_, fun i => ?_, stat_mark_self, ?_, fun i hc hj => ?_⟩
    · exact current_remove
    · exact lockNest_remove
    · rw [body_mark, thread_remove]
      exact body_mark i
    · rw [thread_mark_of_ne (Ne.symm hjc), thread_remove, if_pos hrun]
      exact stat_mark_self
    · rw [thread_mark_of_ne hj, thread_remove]
      exact congrArg Thread.stat (thread_mark_of_ne hc)
  · rw [if_neg hrun]
    refine ⟨current_remove, lockNest_remove, fun i => ?_, stat_mark_self, ?_, fun i hc hj => ?_⟩
    · rw [body_mark, thread_remove]
    · rw [thread_mark_of_ne (Ne.symm hjc), thread_remove, if_neg hrun]
    · rw [thread_mark_of_ne hj, thread_remove]

theorem SchedInv.switch (h : SchedInv s) (hc : s.current = some c) (hj : (s.thread j).Ready)
    (hjc : j ≠ c) : SchedInv (s.switch c j) := by
  have ht := switched (s := s) hjc
  have hcur := h.current c hc
  have hq : Queued (s.switch c j) := by
    unfold Sched.switch
    dsimp only
    have h1 := h.toQueued.setCurrent (some j)
    by_cases hrun : (s.thread c).stat = .running
    · rw [if_pos hrun]
      have hc' : (s.thread c).Running := hrun
      have h2 := h1.insert (i := c) (fun e => hjc (Option.some.inj e)) hcur.1 hc'.live
      refine h2.remove ?_ (by decide)
      rw [insert_eq fun e => hjc (Option.some.inj e)]
      show ((Sched.mark { s with current := some j } c .ready).thread j).Live
      rw [thread_mark_of_ne hjc]
      exact hj.live
    · rw [if_neg hrun]
      exact h1.remove hj.live (by decide)
  refine ⟨hq, fun i hi => ?_, fun i hi => ?_⟩
  · by_cases hij : i = j
    · rw [hij]
      exact ht.current
    · exfalso
      by_cases hic : i = c
      · subst hic
        rw [ht.last] at hi
        split at hi
        · cases hi
        · contradiction
      · have := h.running i ((ht.others i hic hij).symm.trans hi)
        exact hic (Option.some.inj (this.symm.trans hc))
  · have : i = j := Option.some.inj (hi.symm.trans ht.current)
    have hrun : ((s.switch c j).thread i).stat = .running := this ▸ ht.next
    rw [hrun]
    exact ⟨by decide, by decide⟩

/-- the current thread runs, and no thread that is ready is more urgent -/
def Highest (s : Sched ι) : Prop :=
  ∃ c, s.current = some c ∧ (s.thread c).Running ∧
    ∀ i, (s.thread i).Ready → (s.thread c).currentPriority ≤ (s.thread i).currentPriority

/-- a thread that is ready or runs -/
def Thread.Awake (t : Thread) : Prop := t.Ready ∨ t.Running

/-- what `rt_schedule` leaves of the threads -/
structure Scheduled (s t : Sched ι) : Prop where
  inv : SchedInv t
  started : t.current.isSome
  lockNest : t.lockNest = s.lockNest
  body : ∀ i, (t.thread i).body = (s.thread i).body
  awake : ∀ i, (s.thread i).Awake → (t.thread i).Awake
  asleep : ∀ i, ¬ (s.thread i).Awake → t.thread i = s.thread i
  highest : s.lockNest = 0 → (∃ i, (s.thread i).Awake) → Highest t

theorem eq_of_body {t u : Thread} (hb : t.body = u.body) (hs : t.stat = u.stat) : t = u := by
  cases t
  cases u
  simp only [Thread.body, Thread.mk.injEq] at hb hs ⊢
  exact ⟨hs, hb.2⟩

/-- nothing happens -/
theorem scheduled_self (h : SchedInv s) (hc : s.current = some c)
    (hh : s.lockNest = 0 → (∃ i, (s.thread i).Awake) → Highest s) : Scheduled s s :=
  ⟨h, by rw [hc]; rfl, rfl, fun _ => rfl, fun _ hi => hi, fun _ _ => rfl, hh⟩

/-- **`rt_schedule` always finds a thread**, and afterwards, unless the scheduler is locked, the
current thread runs and none that is ready is more urgent. -/
theorem schedule_spec (h : SchedInv s) (hc : s.current = some c) :
    ∃ t, rtSchedule s = some t ∧ Scheduled s t := by
  have hrunning : ∀ i, (s.thread i).Running → i = c :=
    fun i hi => Option.some.inj ((h.running i hi).symm.trans hc)
  rcases schedule_cases h hc with ⟨hno, ht⟩ | ⟨-, hrun, hless, ht⟩ | ⟨hl, j, -, hj, hjc, hmin, hle, ht⟩
  · refine ⟨s, ht, scheduled_self h hc fun hl hawake => ?_⟩
    have hnone := hno.resolve_left (not_not.mpr hl)
    obtain ⟨i, hi⟩ := hawake
    have hrun := hi.resolve_left (hnone i)
    exact ⟨c, hc, hrunning i hrun ▸ hrun, fun k hk => absurd hk (hnone k)⟩
  · exact ⟨s, ht, scheduled_self h hc fun _ _ =>
      ⟨c, hc, hrun, fun i hi => Nat.le_of_lt (hless i hi)⟩⟩
  · have hsw := switched (s := s) hjc
    refine ⟨_, ht, h.switch hc hj hjc, by rw [hsw.current]; rfl, hsw.lockNest, hsw.body,
      fun i hi => ?_, fun i hi => ?_, fun _ _ => ⟨j, hsw.current, hsw.next, fun i hi => ?_⟩⟩
    · by_cases hij : i = j
      · exact Or.inr (hij ▸ hsw.next)
      by_cases hic : i = c
      · subst hic
        have hrun : (s.thread i).stat = .running := hi.resolve_left (h.current i hc).1
        refine Or.inl ?_
        rw [Thread.Ready, hsw.last, if_pos hrun]
      · unfold Thread.Awake Thread.Ready Thread.Running
        rw [hsw.others i hic hij]
        exact hi
    · refine eq_of_body (hsw.body i) ?_
      have hij : i ≠ j := fun e => hi (Or.inl (e ▸ hj))
      by_cases hic : i = c
      · subst hic
        have hrun : (s.thread i).stat ≠ .running := fun e => hi (Or.inr e)
        rw [hsw.last, if_neg hrun]
      · exact hsw.others i hic hij
    · rw [priority_of_body (hsw.body j), priority_of_body (hsw.body i)]
      by_cases hic : i = c
      · subst hic
        refine hle ?_
        by_contra hno
        have hrun : (s.thread i).stat ≠ .running := hno
        rw [Thread.Ready, hsw.last, if_neg hrun] at hi
        exact (h.current i hc).1 hi
      · have hij : i ≠ j := fun e => (by
          have hready : ((s.switch c j).thread j).stat = .ready := e ▸ hi
          have := hready.symm.trans hsw.next
          cases this)
        exact hmin i ((hsw.others i hic hij).symm.trans hi)

/-! ## the other operations -/

/-- no thread is started -/
theorem schedInv_init {thread : ι → Thread} (h : ∀ i, (thread i).stat = .init) :
    SchedInv (rtSystemSchedulerInit thread) := by
  have hstat : ∀ i, ((rtSystemSchedulerInit thread).thread i).stat = .init := h
  refine ⟨⟨marks_zero, fun i p => ?_, fun _ => List.nodup_nil, fun i hi => absurd (h i) hi.1⟩,
    fun i hi => ?_, fun c hc => (by cases hc)⟩
  · refine iff_of_false List.not_mem_nil fun hi => ?_
    cases (hstat i).symm.trans hi.1
  · cases (hstat i).symm.trans hi

/-- a change of a thread that does not touch where it stands -/
theorem SchedInv.edit (h : SchedInv s) {f : Thread → Thread}
    (hstat : (f (s.thread i)).stat = (s.thread i).stat)
    (hprio : (f (s.thread i)).currentPriority = (s.thread i).currentPriority)
    (hmask : (f (s.thread i)).numberMask = (s.thread i).numberMask) : SchedInv (s.edit i f) := by
  have hall : ∀ j, ((s.edit i f).thread j).stat = (s.thread j).stat ∧
      ((s.edit i f).thread j).currentPriority = (s.thread j).currentPriority ∧
      ((s.edit i f).thread j).numberMask = (s.thread j).numberMask := fun j => by
    by_cases hji : j = i
    · subst hji
      rw [thread_edit_self]
      exact ⟨hstat, hprio, hmask⟩
    · rw [thread_edit_of_ne _ hji]
      exact ⟨rfl, rfl, rfl⟩
  refine ⟨⟨h.marks, fun j p => ?_, h.nodup, fun j hj => ?_⟩, fun j hj => ?_, fun j hj => ?_⟩
  · rw [(hall j).1, (hall j).2.1]
    exact h.mem j p
  · rw [(hall j).2.1, (hall j).2.2]
    unfold Thread.Live at hj
    rw [(hall j).1] at hj
    exact h.mask j hj
  · exact h.running j ((hall j).1.symm.trans hj)
  · rw [(hall j).1]
    exact h.current j hj

/-- what it leaves when a thread that is suspended goes to the ready ones -/
structure Resumed (s : Sched ι) (i : ι) (t : Sched ι) : Prop where
  inv : SchedInv t
  current : t.current = s.current
  lockNest : t.lockNest = s.lockNest
  awake : (t.thread i).Awake
  body : (t.thread i).body = (s.thread i).body
  others : ∀ j, j ≠ i → t.thread j = s.thread j

/-- A thread that is suspended goes to the ready ones; the current thread, if it has suspended itself
but not left the processor yet, simply runs on. -/
theorem resumed (h : SchedInv s) (hi : (s.thread i).stat = .suspend) :
    Resumed s i (rtScheduleInsertThread (s.unlink i) i) := by
  have hready : (s.thread i).stat ≠ .ready := by rw [hi]; decide
  have hlive : (s.thread i).Live := by
    unfold Thread.Live
    rw [hi]
    exact ⟨by decide, by decide⟩
  rw [h.unlink_eq hready]
  by_cases hc : s.current = some i
  · rw [insert_current hc]
    refine ⟨⟨h.mark hready (by decide) (Or.inl hlive), fun j hj => ?_, fun j hj => ?_⟩, rfl, rfl,
      Or.inr stat_mark_self, body_mark i, fun j hj => thread_mark_of_ne hj⟩
    · by_cases hji : j = i
      · exact hji ▸ hc
      · rw [thread_mark_of_ne hji] at hj
        exact h.running j hj
    · obtain rfl : j = i := Option.some.inj (hj.symm.trans hc)
      rw [stat_mark_self]
      exact ⟨by decide, by decide⟩
  · have hq := h.insert hc hready hlive
    rw [insert_eq hc] at hq ⊢
    have hself : ((s.mark i .ready).thread i).stat = .ready := stat_mark_self
    refine ⟨⟨hq, fun j hj => ?_, fun j hj => ?_⟩, rfl, rfl, Or.inl hself, body_mark i,
      fun j hj => thread_mark_of_ne hj⟩
    · by_cases hji : j = i
      · subst hji
        cases hself.symm.trans hj
      · exact h.running j ((congrArg Thread.stat (thread_mark_of_ne hji)).symm.trans hj)
    · have hji : j ≠ i := fun e => hc (e ▸ hj)
      show ((s.mark i .ready).thread j).stat ≠ .ready ∧ ((s.mark i .ready).thread j).stat ≠ .init
      rw [thread_mark_of_ne hji]
      exact h.current j hj

/-- a thread is taken out, to wait or for good -/
theorem SchedInv.takeOut (h : SchedInv s) (hlive : (s.thread i).Live)
    (hx : x = .suspend ∨ x = .close) : SchedInv ((rtScheduleRemoveThread s i).mark i x) := by
  have hx' : x ≠ .ready ∧ x ≠ .init ∧ x ≠ .running := by
    rcases hx with rfl | rfl <;> decide
  refine ⟨h.remove hlive hx'.1, fun j hj => ?_, fun j hj => ?_⟩
  · by_cases hji : j = i
    · subst hji
      rw [stat_mark_self] at hj
      exact absurd hj hx'.2.2
    · rw [thread_mark_of_ne hji, thread_remove] at hj
      exact current_remove.trans (h.running j hj)
  · have hc : s.current = some j := current_remove.symm.trans hj
    by_cases hji : j = i
    · subst hji
      rw [stat_mark_self]
      exact ⟨hx'.1, hx'.2.1⟩
    · rw [thread_mark_of_ne hji, thread_remove]
      exact h.current j hc

/-- a thread that is not ready is changed, and is not ready afterwards -/
theorem SchedInv.change (h : SchedInv s) (hi : (s.thread i).stat ≠ .ready) {f : Thread → Thread}
    (hf : (f (s.thread i)).stat ≠ .ready)
    (hmask : (f (s.thread i)).Live →
      (f (s.thread i)).numberMask = 1#32 <<< (f (s.thread i)).currentPriority.val)
    (hrun : (f (s.thread i)).stat = .running → s.current = some i)
    (hcur : s.current = some i → (f (s.thread i)).stat ≠ .init) : SchedInv (s.edit i f) := by
  refine ⟨⟨h.marks, fun j p => ?_, h.nodup, fun j hj => ?_⟩, fun j hj => ?_, fun j hj => ?_⟩
  · by_cases hji : j = i
    · subst hji
      rw [thread_edit_self]
      exact iff_of_false (fun hm => hi ((h.mem j p).mp hm).1) fun hm => hf hm.1
    · rw [thread_edit_of_ne _ hji]
      exact h.mem j p
  · by_cases hji : j = i
    · subst hji
      rw [thread_edit_self] at hj ⊢
      exact hmask hj
    · rw [thread_edit_of_ne _ hji] at hj ⊢
      exact h.mask j hj
  · by_cases hji : j = i
    · subst hji
      rw [thread_edit_self] at hj
      exact hrun hj
    · rw [thread_edit_of_ne _ hji] at hj
      exact h.running j hj
  · by_cases hji : j = i
    · subst hji
      rw [thread_edit_self]
      exact ⟨hf, hcur hj⟩
    · rw [thread_edit_of_ne _ hji]
      exact h.current j hj

/-- a thread that was never started is closed -/
theorem SchedInv.close (h : SchedInv s) (hi : (s.thread i).stat = .init) :
    SchedInv (s.mark i .close) :=
  h.change (by rw [hi]; decide) nofun (fun hl => absurd rfl hl.2) nofun nofun

/-- a thread that is started stands nowhere yet, and has the word of its priority -/
theorem SchedInv.place (h : SchedInv s) (hi : (s.thread i).stat = .init) (p : Fin 32) :
    SchedInv ((s.setPriority i p).mark i .suspend) := by
  rw [Sched.setPriority, Sched.mark, edit_edit]
  exact h.change (by rw [hi]; decide) nofun (fun _ => rfl) nofun nofun

theorem SchedInv.setPriority (h : SchedInv s) (hi : (s.thread i).stat ≠ .ready) (p : Fin 32) :
    SchedInv (s.setPriority i p) :=
  h.change hi hi (fun _ => rfl) (h.running i) fun hc => (h.current i hc).2

theorem SchedInv.setLock (h : SchedInv s) (n : BitVec 16) : SchedInv { s with lockNest := n } :=
  ⟨⟨h.marks, h.mem, h.nodup, h.mask⟩, h.running, h.current⟩

/-- A ready thread that changes its priority goes to the end of its new list, as if it had been
suspended in between. -/
theorem changePriority_ready (h : SchedInv s) (hi : (s.thread i).stat = .ready) (p : Fin 32) :
    rtThreadChangePriority s i p = rtScheduleInsertThread
      (((rtScheduleRemoveThread s i).mark i .suspend).setPriority i p) i := by
  have hc : s.current ≠ some i := fun e => (h.current i e).1 hi
  rw [rtThreadChangePriority, if_pos hi, insert_eq, insert_eq]
  · simp only [Sched.setPriority, Sched.mark, edit_edit, thread_edit_self, table_edit, group_edit]
  · exact fun e => hc (current_remove.symm.trans e)
  · exact fun e => hc (current_remove.symm.trans e)

/-- **`rt_system_scheduler_start`** switches to a first thread. -/
theorem start_scheduled (h : SchedInv s) (hc : s.current = none)
    (hready : ∃ i, (s.thread i).Ready) : ∃ t, rtSystemSchedulerStart s = some t ∧ Scheduled s t := by
  have hg : s.group ≠ 0 := fun e => hready.elim (h.group_eq_zero_iff.mp e)
  obtain ⟨j, hj, -, hjr, hmin⟩ := h.highest hg
  have hnone : ∀ i, (s.thread i).stat ≠ .running := fun i hi => by
    cases (h.running i hi).symm.trans hc
  set t := (rtScheduleRemoveThread { s with current := some j } j).mark j .running with ht
  have hself : (t.thread j).stat = .running := stat_mark_self
  have hother : ∀ i, i ≠ j → t.thread i = s.thread i := fun i hi => by
    rw [ht, thread_mark_of_ne hi, thread_remove]
  have hbody : ∀ i, (t.thread i).body = (s.thread i).body := fun i => by
    rw [ht, body_mark, thread_remove]
  have hcur : t.current = some j := current_remove
  refine ⟨t, by rw [rtSystemSchedulerStart, hj]; rfl,
    ⟨(h.toQueued.setCurrent (some j)).remove hjr.live (by decide), fun i hi => ?_, fun i hi => ?_⟩,
    by rw [hcur]; rfl, lockNest_remove, hbody, fun i hi => ?_, fun i hi => ?_,
    fun _ _ => ⟨j, hcur, hself, fun i hi => ?_⟩⟩
  · by_cases hij : i = j
    · exact hij ▸ hcur
    · rw [hother i hij] at hi
      exact absurd hi (hnone i)
  · obtain rfl : j = i := Option.some.inj (hcur.symm.trans hi)
    rw [hself]
    exact ⟨by decide, by decide⟩
  · by_cases hij : i = j
    · exact Or.inr (hij ▸ hself)
    · rw [hother i hij]
      exact hi
  · exact hother i fun e => hi (Or.inl (e ▸ hjr))
  · rw [priority_of_body (hbody j), priority_of_body (hbody i)]
    have hij : i ≠ j := fun e => (by
      have hr : (t.thread j).stat = .ready := e ▸ hi
      cases hr.symm.trans hself)
    exact hmin i (by rw [← hother i hij]; exact hi)

end

end ENV

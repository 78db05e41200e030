import Enviroment.Kernel.Timer
import Enviroment.Kernel.Scheduler

/-!
# The threads of the kernel (`thread.c`, `clock.c`)

Threads are started, suspend themselves or each other, sleep until their timer expires, are resumed
and end; interrupts come in between, also while a thread that has suspended itself still waits for
the `rt_schedule` that takes it off the processor.  A call is taken as one step, though some enable
interrupts for a moment in the middle.  A thread that has ended is no object any more: it is detached,
or the idle thread is about to free it, and the calls assert that it is one.

* `rtThreadSuspend`, `rtThreadResume`, `rtThreadSleep`, `rtThreadTimeout`, `rtTickIncrease`   the
                      calls; `none` is a failed assertion;
* `Acted`, `Ticked`   what a call leaves of the threads that it is not about, and what a tick does;
* `KernelInv`         the lists of the scheduler, the list of the timers and the threads agree;
* `kernel_safe`       so they do in every run: no assertion fails, and `rt_schedule` always brings a
                      thread to run than which none that is ready is more urgent;
* `sleep_wakes`       who sleeps wakes at his tick: not before, not after.
-/

set_option linter.unusedSectionVars false

namespace ENV

open Trace

structure KernelSt (ι : Type*) where
  sched : Sched ι
  timers : TimerSt ι
  /-- bookkeeping: the ticks so far -/
  now : Nat

section
variable {ι : Type*} [DecidableEq ι]

/-- `_rt_thread_init`, as far as scheduling needs it -/
def rtThreadInit (priority : Fin 32) (tick : BitVec 32) : Thread :=
  ⟨.init, priority, priority, 0, tick, tick, rtEok⟩

/-- `rt_object_get_type(thread) == RT_Object_Class_Thread` -/
def KernelSt.IsThread (k : KernelSt ι) (i : ι) : Prop := (k.sched.thread i).stat ≠ .close

instance (k : KernelSt ι) (i : ι) : Decidable (k.IsThread i) :=
  inferInstanceAs (Decidable (_ ≠ _))

/-- `rt_thread_suspend(thread)` -/
def rtThreadSuspend (k : KernelSt ι) (i : ι) : Option (RtErr × KernelSt ι) :=
  let stat := (k.sched.thread i).stat
  if ¬ k.IsThread i then none
  else if stat ≠ .ready ∧ stat ≠ .running then some (-rtError, k)
  else if stat = .running ∧ k.sched.current ≠ some i then none
  else some (rtEok,
    { k with
      sched := (rtScheduleRemoveThread k.sched i).mark i .suspend
      timers := (rtTimerStop k.timers i).2 })

/-- `rt_thread_resume(thread)` -/
def rtThreadResume (k : KernelSt ι) (i : ι) : Option (RtErr × KernelSt ι) :=
  if ¬ k.IsThread i then none
  else if (k.sched.thread i).stat ≠ .suspend then some (-rtError, k)
  else some (rtEok,
    { k with
      timers := (rtTimerStop k.timers i).2
      sched := rtScheduleInsertThread (k.sched.unlink i) i })

/-- `rt_thread_sleep(tick)` of the thread `i` before `rt_schedule`; so does a call that waits for
something with a timeout -/
def rtThreadSleep (k : KernelSt ι) (i : ι) (tick : BitVec 32) : Option (KernelSt ι) :=
  (rtThreadSuspend k i).bind fun (_, k) =>
    (rtTimerStart (rtTimerSetTime k.timers i tick) i).map fun t => { k with timers := t }

/-- the end of `rt_thread_sleep` of the thread `i`, when `rt_schedule` has come back to it -/
def rtThreadSleepEnd (s : Sched ι) (i : ι) : Sched ι :=
  s.edit i fun t => { t with error := if t.error = -rtEtimeout then rtEok else t.error }

/-- `rt_thread_control(thread, RT_THREAD_CTRL_CHANGE_PRIORITY, &p)` -/
def rtThreadControl (k : KernelSt ι) (i : ι) (p : Fin 32) : Option (KernelSt ι) :=
  if k.IsThread i then some { k with sched := rtThreadChangePriority k.sched i p } else none

/-- `rt_thread_timeout(thread)` -/
def rtThreadTimeout (i : ι) (s : Sched ι) : Option (Sched ι) :=
  if (s.thread i).stat = .suspend then
    let s := s.edit i fun t => { t with error := -rtEtimeout }
    rtSchedule (rtScheduleInsertThread (s.unlink i) i)
  else none

/-- `rt_thread_startup(thread)` -/
def rtThreadStartup (k : KernelSt ι) (i : ι) : Option (KernelSt ι) :=
  if (k.sched.thread i).stat = .init then
    let s := k.sched.setPriority i (k.sched.thread i).initPriority
    (rtThreadResume { k with sched := s.mark i .suspend } i).bind fun (_, k) =>
      if k.sched.current.isSome then (rtSchedule k.sched).map fun s => { k with sched := s }
      else some k
  else none

/-- `rt_thread_detach(thread)`, `rt_thread_delete(thread)`, and `rt_thread_exit()` before
`rt_schedule` -/
def rtThreadDetach (k : KernelSt ι) (i : ι) : Option (KernelSt ι) :=
  if k.IsThread i then
    let s := if (k.sched.thread i).stat ≠ .init then rtScheduleRemoveThread k.sched i else k.sched
    some { k with
      sched := s.mark i .close
      timers := rtTimerRemove k.timers i }
  else none

/-- `rt_tick_increase()` -/
def rtTickIncrease (k : KernelSt ι) : Option (KernelSt ι) :=
  (rtTickSlice k.sched).bind fun s =>
    (rtTickTimers rtThreadTimeout k.timers s).map fun (t, s) => ⟨s, t, k.now + 1⟩

/-! ## runs -/

inductive KernelAct (ι : Type*) where
  | startup (i : ι)
  /-- `rt_system_scheduler_start()` -/
  | start
  /-- `rt_schedule()`, from a thread or at the end of an interrupt -/
  | schedule
  | suspend (i : ι)
  | sleep (i : ι) (tick : BitVec 32)
  | sleepEnd (i : ι)
  | resume (i : ι)
  | changePriority (i : ι) (p : Fin 32)
  | detach (i : ι)
  | enterCritical
  | exitCritical
  | tick

def kernelStep (k : KernelSt ι) : KernelAct ι → Option (KernelSt ι)
  | .startup i => rtThreadStartup k i
  | .start => (rtSystemSchedulerStart k.sched).map fun s => { k with sched := s }
  | .schedule => (rtSchedule k.sched).map fun s => { k with sched := s }
  | .suspend i => (rtThreadSuspend k i).map Prod.snd
  | .sleep i d => rtThreadSleep k i d
  | .sleepEnd i => some { k with sched := rtThreadSleepEnd k.sched i }
  | .resume i => (rtThreadResume k i).map Prod.snd
  | .changePriority i p => rtThreadControl k i p
  | .detach i => rtThreadDetach k i
  | .enterCritical => some { k with sched := rtEnterCritical k.sched }
  | .exitCritical => (rtExitCritical k.sched).map fun s => { k with sched := s }
  | .tick => rtTickIncrease k

/-- before the first thread is started -/
def kernelInit (priority : ι → Fin 32) (slice : ι → BitVec 32) : KernelSt ι :=
  ⟨rtSystemSchedulerInit fun i => rtThreadInit (priority i) (slice i),
    ⟨0, [], fun _ => rtTimerInit 0 false⟩, 0⟩

/-- Who calls what: a thread is started once and ended once, and no call is about it after that; only
the current thread sleeps, for less than `RT_TICK_MAX / 2` ticks; the idle thread is started before
the scheduler, and neither sleeps nor ends. -/
def KernelAct.Fits (idle : ι) (k : KernelSt ι) : KernelAct ι → Prop
  | .startup i => (k.sched.thread i).stat = .init
  | .start => k.sched.current = none ∧ (k.sched.thread idle).stat = .ready
  | .schedule => k.sched.current.isSome
  | .suspend i => i ≠ idle ∧ k.IsThread i
  | .sleep i d => k.sched.current = some i ∧ i ≠ idle ∧ k.IsThread i ∧ d < halfTick
  | .sleepEnd i => k.sched.current = some i
  | .detach i => i ≠ idle ∧ k.IsThread i
  | .tick => k.sched.current.isSome
  | .resume i => k.IsThread i
  | .changePriority i _ => k.IsThread i
  | .enterCritical => True
  | .exitCritical => True

instance KernelAct.decidableFits (idle : ι) (k : KernelSt ι) (a : KernelAct ι) :
    Decidable (a.Fits idle k) :=
  match a with
  | .startup _ => inferInstanceAs (Decidable (_ = _))
  | .start => inferInstanceAs (Decidable (_ ∧ _))
  | .schedule => inferInstanceAs (Decidable (_ = _))
  | .suspend _ => inferInstanceAs (Decidable (_ ∧ _))
  | .sleep _ _ => inferInstanceAs (Decidable (_ ∧ _))
  | .sleepEnd _ => inferInstanceAs (Decidable (_ = _))
  | .detach _ => inferInstanceAs (Decidable (_ ∧ _))
  | .tick => inferInstanceAs (Decidable (_ = _))
  | .resume i => inferInstanceAs (Decidable (k.IsThread i))
  | .changePriority i _ => inferInstanceAs (Decidable (k.IsThread i))
  | .enterCritical => isTrue trivial
  | .exitCritical => isTrue trivial

/-- the act starts, suspends, resumes or ends the thread `i`, or is the end of its sleep -/
def KernelAct.About (i : ι) : KernelAct ι → Prop
  | .startup j => j = i
  | .suspend j => j = i
  | .sleep j _ => j = i
  | .sleepEnd j => j = i
  | .resume j => j = i
  | .detach j => j = i
  | _ => False

instance KernelAct.decidableAbout (i : ι) (a : KernelAct ι) : Decidable (a.About i) :=
  match a with
  | .startup j => inferInstanceAs (Decidable (j = i))
  | .suspend j => inferInstanceAs (Decidable (j = i))
  | .sleep j _ => inferInstanceAs (Decidable (j = i))
  | .sleepEnd j => inferInstanceAs (Decidable (j = i))
  | .resume j => inferInstanceAs (Decidable (j = i))
  | .detach j => inferInstanceAs (Decidable (j = i))
  | .start => isFalse id
  | .schedule => isFalse id
  | .changePriority _ _ => isFalse id
  | .enterCritical => isFalse id
  | .exitCritical => isFalse id
  | .tick => isFalse id

def KernelAct.isTick : KernelAct ι → Bool
  | .tick => true
  | _ => false

/-- the timers of the threads: none is periodic -/
structure OneShot (now : Nat) (t : TimerSt ι) : Prop where
  armed : ∃ key, Armed now now key t
  once : ∀ i, (t.timer i).periodic = false
  time : ∀ i, (t.timer i).initTick < halfTick

/-- the lists of the scheduler, the list of the timers and the threads agree -/
structure KernelInv (idle : ι) (k : KernelSt ι) : Prop where
  sched : SchedInv k.sched
  timers : OneShot k.now k.timers
  asleep : ∀ i ∈ k.timers.list, (k.sched.thread i).stat = .suspend
  idle : k.sched.current.isSome → (k.sched.thread idle).Awake

/-! ## what an operation leaves of the other threads -/

/-- for the threads `P` -/
structure Undisturbed (P : ι → Prop) (s t : Sched ι) : Prop where
  awake : ∀ i, P i → (s.thread i).Awake → (t.thread i).Awake
  asleep : ∀ i, P i → ¬ (s.thread i).Awake → (t.thread i).stat = (s.thread i).stat
  error : ∀ i, P i → (t.thread i).error = (s.thread i).error

variable {P Q : ι → Prop} {s t u : Sched ι} {i idle : ι} {now : Nat} {k k' : KernelSt ι}

theorem not_awake_iff {t : Thread} : ¬ t.Awake ↔ t.stat ≠ .ready ∧ t.stat ≠ .running := not_or

theorem not_awake_of_suspend {t : Thread} (h : t.stat = .suspend) : ¬ t.Awake :=
  not_awake_iff.mpr (by rw [h]; decide)

theorem undisturbed_of_eq (h : ∀ i, P i → t.thread i = s.thread i) : Undisturbed P s t :=
  ⟨fun i hi ha => h i hi ▸ ha, fun i hi _ => congrArg Thread.stat (h i hi),
    fun i hi => congrArg Thread.error (h i hi)⟩

theorem Undisturbed.refl (P : ι → Prop) (s : Sched ι) : Undisturbed P s s :=
  undisturbed_of_eq fun _ _ => rfl

theorem Undisturbed.imp (h : Undisturbed P s t) (hq : ∀ i, Q i → P i) : Undisturbed Q s t :=
  ⟨fun i hi => h.awake i (hq i hi), fun i hi => h.asleep i (hq i hi),
    fun i hi => h.error i (hq i hi)⟩

theorem Undisturbed.suspend (h : Undisturbed P s t) (hi : P i) (hs : (s.thread i).stat = .suspend) :
    (t.thread i).stat = .suspend :=
  (h.asleep i hi (not_awake_of_suspend hs)).trans hs

theorem awake_of_stat {t u : Thread} (h : t.stat = u.stat) : t.Awake ↔ u.Awake := by
  unfold Thread.Awake Thread.Ready Thread.Running
  rw [h]

theorem Undisturbed.trans (h1 : Undisturbed P s t) (h2 : Undisturbed P t u) :
    Undisturbed P s u := by
  refine ⟨fun i hi ha => h2.awake i hi (h1.awake i hi ha), fun i hi ha => ?_,
    fun i hi => (h2.error i hi).trans (h1.error i hi)⟩
  have hstat := h1.asleep i hi ha
  exact (h2.asleep i hi (mt (awake_of_stat hstat).mp ha)).trans hstat

theorem stat_edit {f : Thread → Thread} (h : (f (s.thread i)).stat = (s.thread i).stat) (j : ι) :
    ((s.edit i f).thread j).stat = (s.thread j).stat := by
  by_cases hj : j = i
  · subst hj
    rw [thread_edit_self, h]
  · rw [thread_edit_of_ne _ hj]

/-- a change that touches neither where a thread stands nor its error -/
theorem undisturbed_edit {f : Thread → Thread} (h : (f (s.thread i)).stat = (s.thread i).stat)
    (herr : (f (s.thread i)).error = (s.thread i).error) : Undisturbed P s (s.edit i f) := by
  refine ⟨fun j _ ha => (awake_of_stat (stat_edit h j)).mpr ha, fun j _ _ => stat_edit h j,
    fun j _ => ?_⟩
  by_cases hj : j = i
  · subst hj
    rw [thread_edit_self, herr]
  · rw [thread_edit_of_ne _ hj]

theorem Scheduled.undisturbed (h : Scheduled s t) (P : ι → Prop) : Undisturbed P s t :=
  ⟨fun i _ => h.awake i, fun i _ ha => congrArg Thread.stat (h.asleep i ha),
    fun i _ => (congrArg Thread.error (h.body i) :)⟩

theorem Resumed.undisturbed (h : Resumed s i t) : Undisturbed (· ≠ i) s t :=
  undisturbed_of_eq h.others

/-! ## the timers of the threads -/

theorem OneShot.fits {t : TimerSt ι} (h : OneShot now t) (i : ι) : (t.timer i).Fits :=
  ⟨h.time i, fun e => absurd (h.once i) (by rw [e]; decide)⟩

theorem OneShot.same {t t' : TimerSt ι} (h : OneShot now t) {key : ι → Nat}
    (hA : Armed now now key t') (hs : SameElse i t t') : OneShot now t' :=
  ⟨⟨key, hA⟩, fun j => (hs.periodic j).trans (h.once j), fun j => by
    rw [hs.initTick j]
    exact h.time j⟩

/-- what stopping the timer of the thread `i` leaves -/
structure Off (now : Nat) (i : ι) (t t' : TimerSt ι) : Prop where
  oneShot : OneShot now t'
  mem : ∀ j, j ∈ t'.list ↔ j ≠ i ∧ j ∈ t.list
  due : ∀ j, j ≠ i → t'.due now j = t.due now j

theorem off_stop {t : TimerSt ι} (h : OneShot now t) (i : ι) : Off now i t (rtTimerStop t i).2 := by
  obtain ⟨key, hA⟩ := h.armed
  obtain ⟨hA', hmem, hsame⟩ := stop_spec hA i
  exact ⟨h.same hA' hsame, hmem, fun j hj => due_else hsame hj ((hmem j).trans (and_iff_right hj))⟩

theorem off_remove {t : TimerSt ι} (h : OneShot now t) (i : ι) :
    Off now i t (rtTimerRemove t i) := by
  obtain ⟨key, hA⟩ := h.armed
  have hmem : ∀ j, j ∈ (rtTimerRemove t i).list ↔ j ≠ i ∧ j ∈ t.list :=
    fun j => hA.nodup.mem_erase_iff
  have hsame := sameElse_remove t i
  exact ⟨h.same (armed_remove hA i) hsame, hmem,
    fun j hj => due_else hsame hj ((hmem j).trans (and_iff_right hj))⟩

/-- the timer is set to `d` ticks and started -/
theorem oneShot_start {t : TimerSt ι} (h : OneShot now t) (i : ι) {d : BitVec 32}
    (hd : d < halfTick) :
    ∃ t', rtTimerStart (rtTimerSetTime t i d) i = some t' ∧ OneShot now t' ∧
      (∀ j, j ∈ t'.list ↔ j = i ∨ j ∈ t.list) ∧ t'.due now i = some (now + max 1 d.toNat) ∧
      ∀ j, j ≠ i → t'.due now j = t.due now j := by
  obtain ⟨key, hA⟩ := h.armed
  have hset : OneShot now (rtTimerSetTime t i d) := by
    refine ⟨⟨key, armed_set hA (fun _ => rfl) fun _ => rfl⟩, fun j => ?_, fun j => ?_⟩
    · by_cases hj : j = i
      · subst hj
        rw [rtTimerSetTime, edit_self]
        exact h.once j
      · rw [rtTimerSetTime, edit_of_ne _ _ hj]
        exact h.once j
    · by_cases hj : j = i
      · subst hj
        rw [rtTimerSetTime, edit_self]
        exact hd
      · rw [rtTimerSetTime, edit_of_ne _ _ hj]
        exact h.time j
  have hinit : ((rtTimerSetTime t i d).timer i).initTick = d := by
    rw [rtTimerSetTime, edit_self]
  obtain ⟨t', key', ht, hA', hkey, hlist, hsame⟩ :=
    start_spec (armed_set hA (i := i) (f := fun t => { t with initTick := d }) (fun _ => rfl)
      fun _ => rfl) (hset.time i)
  have hmem : ∀ j, j ∈ t'.list ↔ j = i ∨ j ∈ t.list := fun j => by
    rw [hlist]
    exact mem_insertPrio_erase key' i j _
  refine ⟨t', ht, hset.same hA' hsame, hmem, ?_, fun j hj => ?_⟩
  · rw [due_start hA' hkey hlist]
    exact congrArg (fun e => some (now + max 1 e.toNat)) hinit
  · rw [due_else hsame hj ((hmem j).trans (or_iff_right hj))]
    exact due_edit (f := fun t => { t with initTick := d }) (fun _ => rfl) j i

/-! ## the calls -/

/-- what an operation does that is not about the threads `P`, and no tick -/
structure Acted (idle : ι) (P : ι → Prop) (k k' : KernelSt ι) : Prop where
  inv : KernelInv idle k'
  now : k'.now = k.now
  threads : Undisturbed P k.sched k'.sched
  due : ∀ i, P i → k'.timers.due k.now i = k.timers.due k.now i

theorem Acted.trans {k'' : KernelSt ι} (h1 : Acted idle P k k') (h2 : Acted idle P k' k'') :
    Acted idle P k k'' := by
  refine ⟨h2.inv, h2.now.trans h1.now, h1.threads.trans h2.threads, fun i hi => ?_⟩
  rw [← h1.due i hi, ← h1.now]
  exact h2.due i hi

theorem Acted.imp (h : Acted idle P k k') (hq : ∀ i, Q i → P i) : Acted idle Q k k' :=
  ⟨h.inv, h.now, h.threads.imp hq, fun i hi => h.due i (hq i hi)⟩

theorem acted_self (h : KernelInv idle k) : Acted idle P k k :=
  ⟨h, rfl, Undisturbed.refl P _, fun _ _ => rfl⟩

/-- an operation on the scheduler alone -/
theorem acted_sched (h : KernelInv idle k) (ht : SchedInv t)
    (hl : Undisturbed (fun _ => True) k.sched t)
    (hidle : (k.sched.thread idle).Awake ∨ (t.current = k.sched.current)) :
    Acted idle P k { k with sched := t } := by
  refine ⟨⟨ht, h.timers, fun i hi => hl.suspend trivial (h.asleep i hi), fun hc => ?_⟩, rfl,
    hl.imp fun _ _ => trivial, fun _ _ => rfl⟩
  refine hl.awake idle trivial (hidle.elim id fun e => h.idle ?_)
  rw [← e]
  exact hc

/-- an operation on the thread `i` that stops its timer -/
theorem acted_off {T : TimerSt ι} (h : KernelInv idle k) (ht : SchedInv t)
    (hl : Undisturbed (· ≠ i) k.sched t) (hoff : Off k.now i k.timers T)
    (hc : t.current = k.sched.current) (hidle : idle ≠ i ∨ (t.thread idle).Awake) :
    Acted idle (· ≠ i) k ⟨t, T, k.now⟩ := by
  refine ⟨⟨ht, hoff.oneShot, fun j hj => ?_, fun hcur => ?_⟩, rfl, hl, hoff.due⟩
  · obtain ⟨hji, hj'⟩ := (hoff.mem j).mp hj
    exact hl.suspend hji (h.asleep j hj')
  · refine hidle.elim (fun hne => hl.awake idle hne (h.idle ?_)) id
    rw [← hc]
    exact hcur

/-- **`rt_schedule`**, wherever it is called -/
theorem schedule_acted (h : KernelInv idle k) (hc : k.sched.current.isSome) :
    ∃ t, rtSchedule k.sched = some t ∧ Scheduled k.sched t ∧
      Acted idle P k { k with sched := t } := by
  obtain ⟨c, hc'⟩ := Option.isSome_iff_exists.mp hc
  obtain ⟨t, ht, hs⟩ := schedule_spec h.sched hc'
  exact ⟨t, ht, hs, acted_sched h hs.inv (hs.undisturbed _) (Or.inl (h.idle hc))⟩

theorem start_acted (h : KernelInv idle k) (hc : k.sched.current = none)
    (hi : (k.sched.thread idle).stat = .ready) :
    ∃ k', kernelStep k .start = some k' ∧ Acted idle P k k' := by
  obtain ⟨t, ht, hs⟩ := start_scheduled h.sched hc ⟨idle, hi⟩
  refine ⟨{ k with sched := t }, congrArg (Option.map _) ht, ?_⟩
  exact acted_sched h hs.inv (hs.undisturbed _) (Or.inl (Or.inl hi))

/-- **`rt_thread_suspend`** -/
theorem suspend_acted (h : KernelInv idle k) (hi : i ≠ idle) (hthread : k.IsThread i) :
    ∃ r k', rtThreadSuspend k i = some (r, k') ∧ Acted idle (· ≠ i) k k' ∧
      ((k.sched.thread i).Awake ∨ (k.sched.thread i).stat = .suspend →
        (k'.sched.thread i).stat = .suspend) := by
  unfold rtThreadSuspend
  rw [if_neg (not_not.mpr hthread)]
  by_cases ha : (k.sched.thread i).Awake
  case neg =>
    refine ⟨_, k, if_pos (not_awake_iff.mp ha), acted_self h, fun hs => hs.resolve_left ha⟩
  have hlive : (k.sched.thread i).Live := ha.elim Thread.Ready.live Thread.Running.live
  have hassert : ¬ ((k.sched.thread i).stat = .running ∧ k.sched.current ≠ some i) :=
    fun hr => hr.2 (h.sched.running i hr.1)
  have hother : ∀ j, j ≠ i →
      ((rtScheduleRemoveThread k.sched i).mark i .suspend).thread j = k.sched.thread j :=
    fun j hj => by rw [thread_mark_of_ne hj, thread_remove]
  exact ⟨_, _, (if_neg fun hn => not_awake_iff.mpr hn ha).trans (if_neg hassert),
    acted_off h (h.sched.takeOut hlive (Or.inl rfl)) (undisturbed_of_eq hother)
      (off_stop h.timers i) current_remove (Or.inl (Ne.symm hi)), fun _ => stat_mark_self⟩

/-- **`rt_thread_sleep`**: the timer expires at the tick `d` from now; no ticks are one. -/
theorem sleep_acted (h : KernelInv idle k) (hi : i ≠ idle) (hc : k.sched.current = some i)
    (hthread : k.IsThread i) {d : BitVec 32} (hd : d < halfTick) :
    ∃ k', rtThreadSleep k i d = some k' ∧ Acted idle (· ≠ i) k k' ∧
      (k'.sched.thread i).stat = .suspend ∧
      k'.timers.due k.now i = some (k.now + max 1 d.toNat) := by
  obtain ⟨hready, hinit⟩ := h.sched.current i hc
  have hcase : (k.sched.thread i).Awake ∨ (k.sched.thread i).stat = .suspend := by
    unfold Thread.Awake Thread.Ready Thread.Running
    cases hstat : (k.sched.thread i).stat with
    | init => exact absurd hstat hinit
    | ready => exact absurd hstat hready
    | suspend => exact Or.inr rfl
    | running => exact Or.inl (Or.inr rfl)
    | close => exact absurd hstat hthread
  obtain ⟨r, k1, hk1, hact, hsusp⟩ := suspend_acted h hi hthread
  obtain ⟨t', ht', hone, hmem, hdue, hother⟩ := oneShot_start hact.inv.timers i hd
  have hstat := hsusp hcase
  refine ⟨{ k1 with timers := t' }, ?_, hact.trans ⟨⟨hact.inv.sched, hone, fun j hj => ?_,
    hact.inv.idle⟩, rfl, Undisturbed.refl _ _, hother⟩, hstat, ?_⟩
  · unfold rtThreadSleep
    rw [hk1, Option.bind_some]
    show (rtTimerStart (rtTimerSetTime k1.timers i d) i).map _ = _
    rw [ht']
    rfl
  · rcases (hmem j).mp hj with rfl | hj'
    · exact hstat
    · exact hact.inv.asleep j hj'
  · rw [← hact.now]
    exact hdue

theorem sleepEnd_acted (h : KernelInv idle k) (i : ι) :
    Acted idle (· ≠ i) k { k with sched := rtThreadSleepEnd k.sched i } := by
  have hstat : ∀ j, ((rtThreadSleepEnd k.sched i).thread j).stat = (k.sched.thread j).stat :=
    stat_edit rfl
  have hother : ∀ j, j ≠ i → (rtThreadSleepEnd k.sched i).thread j = k.sched.thread j :=
    fun j hj => thread_edit_of_ne _ hj
  have hinv : SchedInv (rtThreadSleepEnd k.sched i) := by
    unfold rtThreadSleepEnd
    exact h.sched.edit rfl rfl rfl
  exact ⟨⟨hinv, h.timers, fun j hj => (hstat j).trans (h.asleep j hj),
    fun hc => (awake_of_stat (hstat idle)).mpr (h.idle hc)⟩, rfl,
    undisturbed_of_eq hother, fun _ _ => rfl⟩

/-- **`rt_thread_resume`** -/
theorem resume_acted (h : KernelInv idle k) (hthread : k.IsThread i) :
    ∃ r k', rtThreadResume k i = some (r, k') ∧ Acted idle (· ≠ i) k k' := by
  unfold rtThreadResume
  rw [if_neg (not_not.mpr hthread)]
  by_cases hs : (k.sched.thread i).stat = .suspend
  case neg =>
    rw [if_pos hs]
    exact ⟨_, k, rfl, acted_self h⟩
  rw [if_neg (not_not.mpr hs)]
  have hr := resumed h.sched hs
  refine ⟨_, _, rfl, acted_off h hr.inv hr.undisturbed (off_stop h.timers i) hr.current ?_⟩
  by_cases hidle : idle = i
  · exact Or.inr (hidle ▸ hr.awake)
  · exact Or.inl hidle

/-- **`rt_thread_startup`** -/
theorem startup_acted (h : KernelInv idle k) (hi : (k.sched.thread i).stat = .init) :
    ∃ k', rtThreadStartup k i = some k' ∧ Acted idle (· ≠ i) k k' := by
  have hnot : ¬ (k.sched.thread i).Awake := not_awake_iff.mpr (by rw [hi]; decide)
  set p := (k.sched.thread i).initPriority with hp
  set k1 : KernelSt ι := { k with sched := (k.sched.setPriority i p).mark i .suspend } with hk1
  have hother : ∀ j, j ≠ i → k1.sched.thread j = k.sched.thread j := fun j hj => by
    show ((k.sched.setPriority i p).mark i .suspend).thread j = _
    rw [thread_mark_of_ne hj]
    exact thread_edit_of_ne _ hj
  have h1 : Acted idle (· ≠ i) k k1 := by
    refine ⟨⟨h.sched.place hi p, h.timers, fun j hj => ?_, fun hc => ?_⟩, rfl,
      undisturbed_of_eq hother, fun _ _ => rfl⟩
    · have hji : j ≠ i := fun e => by
        have := (h.asleep j hj).symm.trans (e ▸ hi)
        cases this
      exact (congrArg Thread.stat (hother j hji)).trans (h.asleep j hj)
    · have hidle : idle ≠ i := fun e => hnot (e ▸ h.idle hc)
      rw [hother idle hidle]
      exact h.idle hc
  have hthread : k1.IsThread i := by
    show (((k.sched.setPriority i p).mark i .suspend).thread i).stat ≠ _
    rw [stat_mark_self]
    decide
  obtain ⟨r, k2, hk2, h2⟩ := resume_acted h1.inv hthread
  have h12 := h1.trans h2
  unfold rtThreadStartup
  rw [if_pos hi]
  show ∃ k', (rtThreadResume k1 i).bind _ = some k' ∧ _
  rw [hk2, Option.bind_some]
  dsimp only
  by_cases hc : k2.sched.current.isSome
  · obtain ⟨t, ht, -, h3⟩ := schedule_acted h2.inv hc
    rw [if_pos hc]
    exact ⟨_, congrArg (Option.map _) ht, h12.trans h3⟩
  · rw [if_neg hc]
    exact ⟨_, rfl, h12⟩

/-- **`RT_THREAD_CTRL_CHANGE_PRIORITY`** -/
theorem changePriority_acted (h : KernelInv idle k) (i : ι) (p : Fin 32) :
    Acted idle P k { k with sched := rtThreadChangePriority k.sched i p } := by
  by_cases hi : (k.sched.thread i).stat = .ready
  · have hlive : (k.sched.thread i).Live := Thread.Ready.live hi
    have h1 := h.sched.takeOut hlive (Or.inl rfl)
    have h2 := h1.setPriority (i := i) (by rw [stat_mark_self]; decide) p
    set s2 := ((rtScheduleRemoveThread k.sched i).mark i .suspend).setPriority i p with hs2
    have hself : (s2.thread i).stat = .suspend := by
      rw [hs2, Sched.setPriority, thread_edit_self]
      exact stat_mark_self
    have hother : ∀ j, j ≠ i → s2.thread j = k.sched.thread j := fun j hj => by
      rw [hs2, Sched.setPriority, thread_edit_of_ne _ hj, thread_mark_of_ne hj, thread_remove]
    have hr := resumed h2 hself
    rw [h2.unlink_eq (by rw [hself]; decide)] at hr
    rw [changePriority_ready h.sched hi]
    refine acted_sched h hr.inv ⟨fun j _ ha => ?_, fun j _ ha => ?_, fun j _ => ?_⟩
      (Or.inr (hr.current.trans current_remove))
    · by_cases hj : j = i
      · rw [hj]
        exact hr.awake
      · rw [hr.others j hj, hother j hj]
        exact ha
    · have hj : j ≠ i := fun e => ha (Or.inl (e ▸ hi))
      rw [hr.others j hj, hother j hj]
    · by_cases hj : j = i
      · subst hj
        have hb : (s2.thread j).error = (k.sched.thread j).error := by
          rw [hs2, Sched.setPriority, thread_edit_self, Sched.mark, thread_edit_self, thread_remove]
        exact (congrArg Thread.error hr.body :).trans hb
      · rw [hr.others j hj, hother j hj]
  · rw [rtThreadChangePriority, if_neg hi]
    exact acted_sched h (h.sched.setPriority hi p) (undisturbed_edit rfl rfl) (Or.inr rfl)

/-- **`rt_thread_detach`** -/
theorem detach_acted (h : KernelInv idle k) (hi : i ≠ idle) (hthread : k.IsThread i) :
    ∃ k', rtThreadDetach k i = some k' ∧ Acted idle (· ≠ i) k k' := by
  have hoff := off_remove h.timers i
  unfold rtThreadDetach
  rw [if_pos hthread]
  refine ⟨_, rfl, ?_⟩
  by_cases hinit : (k.sched.thread i).stat = .init
  · rw [if_neg (not_not.mpr hinit)]
    exact acted_off h (h.sched.close hinit) (undisturbed_of_eq fun j hj => thread_mark_of_ne hj)
      hoff rfl (Or.inl (Ne.symm hi))
  · rw [if_pos hinit]
    refine acted_off h (h.sched.takeOut ⟨hinit, hthread⟩ (Or.inr rfl)) ?_ hoff current_remove
      (Or.inl (Ne.symm hi))
    exact undisturbed_of_eq fun j hj => by rw [thread_mark_of_ne hj, thread_remove]

theorem setLock_acted (h : KernelInv idle k) (n : BitVec 16) :
    Acted idle P k { k with sched := { k.sched with lockNest := n } } :=
  acted_sched h (h.sched.setLock n) (undisturbed_of_eq fun _ _ => rfl) (Or.inr rfl)

/-- **`rt_exit_critical`** -/
theorem exitCritical_acted (h : KernelInv idle k) :
    ∃ k', kernelStep k .exitCritical = some k' ∧ Acted idle P k k' := by
  show ∃ k', (rtExitCritical k.sched).map _ = some k' ∧ _
  unfold rtExitCritical
  dsimp only
  split
  · have h1 : Acted idle P k _ := setLock_acted h 0
    split
    next hc =>
      obtain ⟨t, ht, -, h2⟩ := schedule_acted h1.inv hc
      exact ⟨_, congrArg (Option.map _) ht, h1.trans h2⟩
    next => exact ⟨_, rfl, h1⟩
  · exact ⟨_, rfl, setLock_acted h _⟩

/-! ## the tick -/

/-- what a tick does whose timers of the threads `l` expire -/
structure Woke (l : List ι) (s t : Sched ι) : Prop where
  inv : SchedInv t
  started : t.current.isSome
  woken : ∀ i ∈ l, (t.thread i).Awake ∧ (t.thread i).error = -rtEtimeout
  threads : Undisturbed (· ∉ l) s t

/-- **`rt_thread_timeout`** finds the thread suspended, and wakes it. -/
theorem timeout_spec (h : SchedInv s) (hc : s.current.isSome) (hi : (s.thread i).stat = .suspend) :
    ∃ t, rtThreadTimeout i s = some t ∧ Woke [i] s t := by
  obtain ⟨c, hc'⟩ := Option.isSome_iff_exists.mp hc
  set s1 := s.edit i fun t => { t with error := -rtEtimeout } with hs1
  have h1 : SchedInv s1 := h.edit rfl rfl rfl
  have hself : s1.thread i = { s.thread i with error := -rtEtimeout } := by
    rw [hs1, thread_edit_self]
  have hstat : (s1.thread i).stat = .suspend := by
    rw [hself]
    exact hi
  have hr := resumed h1 hstat
  obtain ⟨t, ht, hs⟩ := schedule_spec hr.inv (hr.current.trans hc')
  have hsched := hs.undisturbed (· ∉ [i])
  refine ⟨t, (if_pos hi).trans ht, hs.inv, hs.started, fun j hj => ?_, ?_⟩
  · obtain rfl := List.mem_singleton.mp hj
    refine ⟨hs.awake j hr.awake, (congrArg Thread.error (hs.body j) :).trans ?_⟩
    refine (congrArg Thread.error hr.body :).trans ?_
    rw [hself]
    rfl
  · have hother : Undisturbed (· ∉ [i]) s s1 :=
      undisturbed_of_eq fun j hj => thread_edit_of_ne _ (mt List.mem_singleton.mpr hj)
    exact (hother.trans (hr.undisturbed.imp fun j hj => mt List.mem_singleton.mpr hj)).trans hsched

theorem Woke.cons {l : List ι} (hi : i ∉ l) (h1 : Woke [i] s t) (h2 : Woke l t u) :
    Woke (i :: l) s u := by
  refine ⟨h2.inv, h2.started, fun j hj => ?_, ?_⟩
  · rcases List.mem_cons.mp hj with rfl | hj'
    · obtain ⟨ha, he⟩ := h1.woken j List.mem_cons_self
      exact ⟨h2.threads.awake j hi ha, (h2.threads.error j hi).trans he⟩
    · exact h2.woken j hj'
  · have hcons : ∀ j, j ∉ i :: l → j ∉ [i] ∧ j ∉ l := fun j hj =>
      ⟨fun e => hj (List.mem_singleton.mp e ▸ List.mem_cons_self),
        fun e => hj (List.mem_cons_of_mem _ e)⟩
    exact (h1.threads.imp fun j hj => (hcons j hj).1).trans
      (h2.threads.imp fun j hj => (hcons j hj).2)

/-- the timeout functions of one `rt_timer_check` -/
theorem timeouts_spec {l : List ι} (hl : l.Nodup) :
    ∀ s : Sched ι, SchedInv s → s.current.isSome → (∀ i ∈ l, (s.thread i).stat = .suspend) →
      ∃ t, l.foldlM (fun s i => rtThreadTimeout i s) s = some t ∧ Woke l s t := by
  induction l with
  | nil =>
    intro s h hc _
    exact ⟨s, rfl, h, hc, fun i hi => absurd hi List.not_mem_nil, Undisturbed.refl _ _⟩
  | cons i l ih =>
    intro s h hc hsusp
    obtain ⟨hi, hl'⟩ := List.nodup_cons.mp hl
    obtain ⟨t, ht, h1⟩ := timeout_spec h hc (hsusp i List.mem_cons_self)
    -- who is still to come sleeps on
    obtain ⟨u, hu, h2⟩ := ih hl' t h1.inv h1.started fun j hj =>
      h1.threads.suspend (fun e => hi (List.mem_singleton.mp e ▸ hj))
        (hsusp j (List.mem_cons_of_mem _ hj))
    refine ⟨u, ?_, h1.cons hi h2⟩
    rw [List.foldlM_cons, ht]
    exact hu

/-- the time slice -/
theorem slice_spec (h : SchedInv s) (hc : s.current.isSome) :
    ∃ t, rtTickSlice s = some t ∧ Woke [] s t := by
  obtain ⟨c, hc'⟩ := Option.isSome_iff_exists.mp hc
  set s1 := s.edit c fun t => { t with remainingTick := t.remainingTick - 1 } with hs1
  have h1 : SchedInv s1 := h.edit rfl rfl rfl
  have hl1 : Undisturbed (· ∉ []) s s1 := undisturbed_edit rfl rfl
  unfold rtTickSlice
  rw [hc', Option.bind_some]
  show ∃ t, (if (s1.thread c).remainingTick = 0 then _ else _) = some t ∧ _
  split
  · set s2 := s1.edit c fun t => { t with remainingTick := t.initTick } with hs2
    have h2 : SchedInv s2 := h1.edit rfl rfl rfl
    obtain ⟨t, ht, hs⟩ := schedule_spec h2 (c := c) hc'
    exact ⟨t, ht, hs.inv, hs.started, fun i hi => absurd hi List.not_mem_nil,
      (hl1.trans (undisturbed_edit rfl rfl)).trans (hs.undisturbed _)⟩
  · exact ⟨s1, rfl, h1, hc, fun i hi => absurd hi List.not_mem_nil, hl1⟩

/-- what a tick does -/
structure Ticked (idle : ι) (k k' : KernelSt ι) : Prop where
  inv : KernelInv idle k'
  now : k'.now = k.now + 1
  woken : ∀ i, k.timers.due k.now i = some (k.now + 1) →
    (k'.sched.thread i).Awake ∧ (k'.sched.thread i).error = -rtEtimeout
  threads : Undisturbed (fun i => k.timers.due k.now i ≠ some (k.now + 1)) k.sched k'.sched
  due : ∀ i, k.timers.due k.now i ≠ some (k.now + 1) →
    k'.timers.due (k.now + 1) i = k.timers.due k.now i

/-- **`rt_tick_increase`** wakes exactly the threads whose moment has come. -/
theorem tick_ticked (h : KernelInv idle k) (hc : k.sched.current.isSome) :
    ∃ k', rtTickIncrease k = some k' ∧ Ticked idle k k' := by
  obtain ⟨s, hs, h1⟩ := slice_spec h.sched hc
  obtain ⟨key, hA⟩ := h.timers.armed
  obtain ⟨t', key', hchk, hrun⟩ := tick_spec hA h.timers.fits (rtThreadTimeout (ι := ι))
  set l := expired (k.now + 1) key k.timers.list with hl
  have hmem : ∀ i, i ∈ l ↔ k.timers.due k.now i = some (k.now + 1) := fun i => mem_expired_iff hA
  have hsusp : ∀ i ∈ k.timers.list, (s.thread i).stat = .suspend := fun i hi =>
    h1.threads.suspend List.not_mem_nil (h.asleep i hi)
  obtain ⟨u, hu, h2⟩ := timeouts_spec (l := l) (hA.nodup.filter _) s h1.inv h1.started
    fun i hi => hsusp i (List.mem_of_mem_filter hi)
  have hthreads : Undisturbed (· ∉ l) k.sched u :=
    (h1.threads.imp fun _ _ => List.not_mem_nil).trans h2.threads
  refine ⟨⟨u, t', k.now + 1⟩, ?_, ⟨h2.inv, ⟨⟨key', hchk.armed⟩, fun i => ?_, fun i => ?_⟩,
    fun i hi => ?_, fun _ => ?_⟩, rfl, fun i hi => h2.woken i ((hmem i).mpr hi),
    hthreads.imp fun i hi => mt (hmem i).mp hi, fun i hi => ?_⟩
  · unfold rtTickIncrease
    rw [hs, Option.bind_some, hrun s, hu]
    rfl
  · exact (hchk.periodic i).trans (h.timers.once i)
  · rw [hchk.initTick]
    exact h.timers.time i
  · -- who still stands in the list has not expired
    obtain ⟨hi', hper⟩ := (hchk.mem i).mp hi
    refine h2.threads.suspend (fun hexp => ?_) (hsusp i hi')
    have := hper (decide_eq_true_eq.mp (List.mem_filter.mp hexp).2)
    rw [h.timers.once i] at this
    cases this
  · by_cases hi : idle ∈ l
    · exact (h2.woken idle hi).1
    · exact hthreads.awake idle hi (h.idle hc)
  · exact (due_checked hA hchk).trans (if_neg hi)

/-! ## runs -/

/-- **One step of the kernel**: nothing fails, and whom the act is not about sleeps on or stays
awake. -/
theorem kernel_step {a : KernelAct ι} (h : KernelInv idle k) (hf : a.Fits idle k)
    (ha : a.isTick = false) :
    ∃ k', kernelStep k a = some k' ∧ Acted idle (fun i => ¬ a.About i) k k' := by
  cases a with
  | startup i =>
    obtain ⟨k', hk', hact⟩ := startup_acted h hf
    exact ⟨k', hk', hact.imp fun j hj => Ne.symm hj⟩
  | start => exact start_acted h hf.1 hf.2
  | schedule =>
    obtain ⟨t, ht, -, hact⟩ := schedule_acted h hf
    exact ⟨_, congrArg (Option.map _) ht, hact⟩
  | suspend i =>
    obtain ⟨r, k', hk', hact, -⟩ := suspend_acted h hf.1 hf.2
    exact ⟨k', congrArg (Option.map _) hk', hact.imp fun j hj => Ne.symm hj⟩
  | sleep i d =>
    obtain ⟨hc, hi, hthread, hd⟩ := hf
    obtain ⟨k', hk', hact, -⟩ := sleep_acted h hi hc hthread hd
    exact ⟨k', hk', hact.imp fun j hj => Ne.symm hj⟩
  | sleepEnd i => exact ⟨_, rfl, (sleepEnd_acted h i).imp fun j hj => Ne.symm hj⟩
  | resume i =>
    obtain ⟨r, k', hk', hact⟩ := resume_acted h hf
    exact ⟨k', congrArg (Option.map _) hk', hact.imp fun j hj => Ne.symm hj⟩
  | changePriority i p => exact ⟨_, if_pos hf, changePriority_acted h i p⟩
  | detach i =>
    obtain ⟨k', hk', hact⟩ := detach_acted h hf.1 hf.2
    exact ⟨k', hk', hact.imp fun j hj => Ne.symm hj⟩
  | enterCritical => exact ⟨_, rfl, setLock_acted h _⟩
  | exitCritical => exact exitCritical_acted h
  | tick => cases ha

theorem kernel_step_inv {a : KernelAct ι} (h : KernelInv idle k) (hf : a.Fits idle k) :
    ∃ k', kernelStep k a = some k' ∧ KernelInv idle k' := by
  cases ha : a.isTick with
  | false =>
    obtain ⟨k', hk', hact⟩ := kernel_step h hf ha
    exact ⟨k', hk', hact.inv⟩
  | true =>
    cases a with
    | tick =>
      obtain ⟨k', hk', ht⟩ := tick_ticked h hf
      exact ⟨k', hk', ht.inv⟩
    | _ => cases ha

theorem kernelInv_init (idle : ι) (priority : ι → Fin 32) (slice : ι → BitVec 32) :
    KernelInv idle (kernelInit priority slice) := by
  have htime : (0 : BitVec 32) < halfTick := by decide
  exact ⟨schedInv_init fun _ => rfl, ⟨⟨fun _ => 0, armed_init _ _⟩, fun _ => rfl, fun _ => htime⟩,
    fun i hi => (List.not_mem_nil hi).elim, fun hc => (by cases hc)⟩

/-- **The kernel is safe.**  In every run in which the calls fit, no assertion fails and no list is
read where it is empty; the lists, the word of the priorities and the timers always agree with the
threads; and `rt_schedule`, called at any moment, brings a thread to run than which none that is
ready is more urgent. -/
theorem kernel_safe (idle : ι) (priority : ι → Fin 32) (slice : ι → BitVec 32)
    (as : List (KernelAct ι))
    (h : Guarded kernelStep (KernelAct.Fits idle) (kernelInit priority slice) as) :
    ∃ k, run kernelStep (kernelInit priority slice) as = some k ∧ KernelInv idle k ∧
      (k.sched.current.isSome → ∃ s, rtSchedule k.sched = some s ∧
        (k.sched.lockNest = 0 → Highest s)) := by
  obtain ⟨k, hk, hinv⟩ := run_guarded (fun _ _ => kernel_step_inv) as
    (kernelInv_init idle priority slice) h
  refine ⟨k, hk, hinv, fun hc => ?_⟩
  obtain ⟨s, hs, hsched, -⟩ := schedule_acted (P := fun _ => True) hinv hc
  exact ⟨s, hs, fun hl => hsched.highest hl ⟨idle, hinv.idle hc⟩⟩

/-- the thread `i` sleeps until the tick `T`, or has woken at it -/
def Waiting (T : Nat) (i : ι) (k : KernelSt ι) : Prop :=
  ((k.sched.thread i).stat = .suspend ∧ k.timers.due k.now i = some T ∧ k.now < T) ∨
    ((k.sched.thread i).Awake ∧ (k.sched.thread i).error = -rtEtimeout ∧ T ≤ k.now)

theorem Acted.waiting {T : Nat} (h : Acted idle P k k') (hi : P i) (hw : Waiting T i k) :
    Waiting T i k' := by
  unfold Waiting
  rw [h.now]
  rcases hw with ⟨hs, hdue, hlt⟩ | ⟨ha, he, hle⟩
  · exact Or.inl ⟨h.threads.suspend hi hs, (h.due i hi).trans hdue, hlt⟩
  · exact Or.inr ⟨h.threads.awake i hi ha, (h.threads.error i hi).trans he, hle⟩

theorem Ticked.waiting {T : Nat} (h : KernelInv idle k) (ht : Ticked idle k k')
    (hw : Waiting T i k) : Waiting T i k' := by
  unfold Waiting
  rw [ht.now]
  rcases hw with ⟨hs, hdue, hlt⟩ | ⟨ha, he, hle⟩
  · by_cases hT : T = k.now + 1
    · obtain ⟨ha, he⟩ := ht.woken i (hdue.trans (congrArg some hT))
      exact Or.inr ⟨ha, he, Nat.le_of_eq hT⟩
    · have hne : k.timers.due k.now i ≠ some (k.now + 1) := fun e =>
        hT (Option.some.inj (hdue.symm.trans e))
      exact Or.inl ⟨ht.threads.suspend hne hs, (ht.due i hne).trans hdue, by omega⟩
  · -- who is awake has no timer that runs
    have hnot : i ∉ k.timers.list := fun hi => not_awake_of_suspend (h.asleep i hi) ha
    have hne : k.timers.due k.now i ≠ some (k.now + 1) := by
      rw [due_of_not_mem hnot]
      exact fun e => (by cases e)
    exact Or.inr ⟨ht.threads.awake i hne ha, (ht.threads.error i hne).trans he, by omega⟩

theorem waiting_run {T : Nat} (as : List (KernelAct ι)) :
    ∀ k, KernelInv idle k → Waiting T i k →
      Guarded kernelStep (fun k a => KernelAct.Fits idle k a ∧ ¬ a.About i) k as →
      ∃ k', run kernelStep k as = some k' ∧ Waiting T i k' ∧
        k'.now = k.now + as.countP KernelAct.isTick := by
  induction as with
  | nil => exact fun k _ hw _ => ⟨k, rfl, hw, rfl⟩
  | cons a as ih =>
    intro k h hw hg
    obtain ⟨⟨hf, hi⟩, hrest⟩ := hg
    have hstep : ∃ u, kernelStep k a = some u ∧ KernelInv idle u ∧ Waiting T i u ∧
        u.now = k.now + if a.isTick then 1 else 0 := by
      cases ha : a.isTick with
      | false =>
        obtain ⟨u, hu, hact⟩ := kernel_step h hf ha
        exact ⟨u, hu, hact.inv, hact.waiting hi hw, hact.now⟩
      | true =>
        cases a with
        | tick =>
          obtain ⟨u, hu, ht⟩ := tick_ticked h hf
          exact ⟨u, hu, ht.inv, ht.waiting h hw, ht.now⟩
        | _ => cases ha
    obtain ⟨u, hu, hinv, hw', hnow⟩ := hstep
    obtain ⟨k', hk', hw'', hnow'⟩ := ih u hinv hw' (hrest u hu)
    refine ⟨k', (run_cons_some hu as).trans hk', hw'', ?_⟩
    rw [hnow', hnow, List.countP_cons]
    omega

/-- **Who sleeps wakes at his tick**, and not before.  In every run, a thread that sleeps for `d`
ticks is suspended until the tick `d` from then on (no ticks are one), if no call is about it
meanwhile, whatever the other threads and their timers do and however often the counter wraps; from
that tick on it is ready or runs, and finds the error of a timeout. -/
theorem sleep_wakes (idle i : ι) (priority : ι → Fin 32) (slice : ι → BitVec 32) (d : BitVec 32)
    (pre post : List (KernelAct ι))
    (h : Guarded kernelStep (KernelAct.Fits idle) (kernelInit priority slice)
      (pre ++ .sleep i d :: post))
    (hpost : ∀ a ∈ post, ¬ a.About i) :
    ∃ k, run kernelStep (kernelInit priority slice) (pre ++ .sleep i d :: post) = some k ∧
      if post.countP KernelAct.isTick < max 1 d.toNat then (k.sched.thread i).stat = .suspend
      else (k.sched.thread i).Awake ∧ (k.sched.thread i).error = -rtEtimeout := by
  obtain ⟨k0, hk0, h0, ⟨hc, hi, hthread, hd⟩, hrest⟩ :=
    run_guarded_append (fun _ _ => kernel_step_inv) pre _ _ (kernelInv_init idle priority slice) h
  obtain ⟨k1, hk1, hact, hstat, hdue⟩ := sleep_acted h0 hi hc hthread hd
  have hw : Waiting (k0.now + max 1 d.toNat) i k1 := by
    refine Or.inl ⟨hstat, ?_, ?_⟩
    · rw [hact.now]
      exact hdue
    · rw [hact.now]
      omega
  obtain ⟨k, hk, hw', hnow⟩ := waiting_run post k1 hact.inv hw ((hrest k1 hk1).and_mem hpost)
  rw [hact.now] at hnow
  refine ⟨k, ?_, ?_⟩
  · rw [run_append, hk0, Option.bind_some]
    exact (run_cons_some hk1 post).trans hk
  · rcases hw' with ⟨hs, -, hlt⟩ | ⟨ha, he, hle⟩
    · rw [if_pos (by omega)]
      exact hs
    · rw [if_neg (by omega)]
      exact ⟨ha, he⟩

end

/-- the idle thread and one that sleeps -/
theorem kernel_safe_two :
    ∃ k, run kernelStep (kernelInit (fun b : Bool => if b then 10 else 31) fun _ => 5)
        [.startup false, .startup true, .start, .sleep true 2, .schedule, .tick, .tick,
          .sleepEnd true] = some k ∧
      KernelInv false k ∧ (k.sched.current.isSome → ∃ s, rtSchedule k.sched = some s ∧
        (k.sched.lockNest = 0 → Highest s)) :=
  kernel_safe false _ _ _ (by decide +kernel)

theorem sleep_wakes_two :
    ∃ k, run kernelStep (kernelInit (fun b : Bool => if b then 10 else 31) fun _ => 5)
        ([.startup false, .startup true, .start] ++
          .sleep true 2 :: [.schedule, .tick, .changePriority false 5, .tick]) = some k ∧
      if [KernelAct.schedule, .tick, .changePriority false 5, .tick].countP
          (KernelAct.isTick (ι := Bool)) < max 1 (2#32).toNat then
        (k.sched.thread true).stat = .suspend
      else (k.sched.thread true).Awake ∧ (k.sched.thread true).error = -rtEtimeout :=
  sleep_wakes false true _ _ 2 _ _ (by decide +kernel) (by decide)

end ENV

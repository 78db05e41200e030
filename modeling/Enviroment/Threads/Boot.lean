import Enviroment.Threads.Handshake

/-!
# Starting the station (`Enviroment`)

`Enviroment` creates the semaphores, initialises the mailboxes and starts the threads, once at boot
and again for every command of that name.  The shell and the main thread have a higher priority than
the three threads, so an invocation is one step.

* `Board`               the station with the globals: which object they point to, what the kernel
                        has registered, which threads are started;
* `enviroment`          one invocation; `Creations` says which creations succeed;
* `boardStep`           an invocation, or a kernel call of a started thread;
* `AllOrNothing`        what an invocation owes to the threads;
* `ProperBoot`          the condition on an invocation;
* `boot_station`        after a complete boot the board runs as the station does;
* `boot_iff`            a run is all-or-nothing exactly if its invocations are proper.

An assertion that fails never returns; in `rt_mb_init` it fails with the scheduler locked.
-/

namespace ENV

/-- `sem_one`, `sem_two` -/
inductive Sm where
  | one
  | two
deriving DecidableEq

/-- which of the creations of an invocation succeed; the others return `RT_NULL` -/
structure Creations where
  sem : Sm → Bool
  thread : Tid → Bool

structure Board where
  /-- the objects that the globals point to, the mailboxes and the threads -/
  station : Station
  /-- which object; `none` is `RT_NULL` -/
  ptr : Sm → Option Nat
  /-- the number of the next semaphore object -/
  fresh : Nat
  /-- the semaphore objects that no global points to any more -/
  lost : List (Nat × Semaphore Tid)
  /-- the mailboxes in the list of kernel objects -/
  registered : Mb → Bool
  started : Tid → Bool
  /-- an assertion failed with the scheduler locked -/
  halted : Bool

def boardInit : Board :=
  ⟨stationInit, fun _ => none, 0, [], fun _ => false, fun _ => false, false⟩

def Station.sem (s : Station) : Sm → Semaphore Tid
  | .one => s.one
  | .two => s.two

def Station.setSem (s : Station) : Sm → Semaphore Tid → Station
  | .one, v => { s with one := v }
  | .two, v => { s with two := v }

def Station.setBox (s : Station) : Mb → Mailbox Tid 5 → Station
  | .iot, v => { s with iot := v }
  | .led, v => { s with led := v }

theorem five_pos : 0 < 5 := by decide

/-! ## an invocation -/

/-- `sem_one = rt_sem_create(..)`; the object that the global pointed to stays behind -/
def Board.semCreate (b : Board) (x : Sm) (ok : Bool) : Board :=
  let lost := b.lost ++ ((b.ptr x).map fun k => (k, b.station.sem x)).toList
  if ok then
    { b with lost := lost, fresh := b.fresh + 1, ptr := Function.update b.ptr x (some b.fresh),
             station := b.station.setSem x (rtSemCreate 0) }
  else { b with lost := lost, ptr := Function.update b.ptr x none }

/-- the mailbox is registered, and empty -/
def Board.addBox (b : Board) (m : Mb) : Board :=
  { b with registered := Function.update b.registered m true,
           station := b.station.setBox m (rtMbInit 5 five_pos) }

/-- `rt_mb_init(..)`; it does not return if the mailbox is registered already -/
def Board.mbInit (b : Board) (m : Mb) : Option (RtErr × Board) :=
  if b.registered m then none else some (rtEok, b.addBox m)

/-- `rt_thread_create(..)` and `rt_thread_startup`, or `ret = RT_ERROR` -/
def Board.threadStart (t : Tid) (ok : Bool) (r : RtErr × Board) : RtErr × Board :=
  if ok then (r.1, { r.2 with started := Function.update r.2.started t true })
  else (rtError, r.2)

/-- `Enviroment` from the first mailbox on -/
def enviromentTail (c : Creations) (b : Board) : Option RtErr × Board :=
  match b.mbInit .iot with
  | none => (none, { b with halted := true })
  | some (ret, b) =>
    if ret ≠ rtEok then (some (-1), b)
    else
      match b.mbInit .led with
      | none => (none, { b with halted := true })
      | some (ret, b) =>
        if ret ≠ rtEok then (some (-1), b)
        else
          let r := Board.threadStart .nb (c.thread .nb) (ret, b)
          let r := Board.threadStart .byh (c.thread .byh) r
          let r := Board.threadStart .led (c.thread .led) r
          (some r.1, r.2)

/-- `Enviroment()`; the result is `none` if it does not return -/
def enviroment (c : Creations) (b : Board) : Option RtErr × Board :=
  let b := b.semCreate .one (c.sem .one)
  if b.ptr .one = none then (some (-1), b)
  else
    let b := b.semCreate .two (c.sem .two)
    -- the second check asks for `sem_one` again
    if b.ptr .one = none then (some (-1), b)
    else enviromentTail c b

/-! ## steps -/

def Turn.tid : Turn → Tid
  | .byh _ => .byh
  | .nb => .nb
  | .led | .ledTimer => .led

/-- the semaphore of the next kernel call of a thread -/
def Station.calls (s : Station) : Tid → Option Sm
  | .byh =>
    match s.byhPc with
    | .start | .releaseOne => some .one
    | .releaseTwo => some .two
    | _ => none
  | .nb =>
    match s.nbPc with
    | .init | .take => some .one
    | _ => none
  | .led =>
    match s.ledPc with
    | .poll => some .two
    | _ => none

inductive BoardAct where
  | invoke (c : Creations)
  | turn (a : Turn)

def boardStep (b : Board) : BoardAct → Option Board
  | .invoke c => if b.halted then none else some (enviroment c b).2
  | .turn a =>
    -- a call with `RT_NULL` for its semaphore stays in the assertion
    if !b.halted && b.started a.tid && (b.station.calls a.tid).all (fun x => (b.ptr x).isSome) then
      (stationStep b.station a).map fun s => { b with station := s }
    else none

/-! ## what an invocation owes to the threads -/

/-- the semaphores and mailboxes that a thread uses -/
def Tid.sems : Tid → List Sm
  | .byh => [.one, .two]
  | .nb => [.one]
  | .led => [.two]

def Tid.boxes : Tid → List Mb
  | .byh => [.iot, .led]
  | .nb => [.iot]
  | .led => [.led]

/-- on what a thread waits with `RT_WAITING_FOREVER` -/
def Tid.takes : Tid → List Sm
  | .byh | .nb => [.one]
  | .led => []

def Tid.receives : Tid → List Mb
  | .nb => [.iot]
  | .byh | .led => []

/-- what a thread signals -/
def Tid.releases : Tid → List Sm
  | .byh => [.one, .two]
  | .nb => [.one]
  | .led => []

def Tid.sends : Tid → List Mb
  | .byh => [.iot, .led]
  | .nb | .led => []

/-- `t` waits forever on what its partner `u` signals -/
def Tid.waitsOn (t u : Tid) : Prop :=
  t ≠ u ∧ ((∃ x ∈ t.takes, x ∈ u.releases) ∨ ∃ m ∈ t.receives, m ∈ u.sends)

/-- an invocation that takes `b` to `b'` and returns `ret` -/
structure AllOrNothing (b : Board) (ret : Option RtErr) (b' : Board) : Prop where
  /-- a thread is started only if all that it uses was created -/
  created : ∀ t, b.started t = false → b'.started t = true →
    (∀ x ∈ t.sems, b'.ptr x ≠ none) ∧ ∀ m ∈ t.boxes, b'.registered m = true
  /-- a failure leaves no thread that waits on one that was not started -/
  partners : ret ≠ some rtEok → ∀ t u, b'.started t = true → t.waitsOn u → b'.started u = true
  /-- what running threads use is as it was: objects, tokens, mails, suspended threads -/
  unharmed : ∀ t, b.started t = true →
    (∀ x ∈ t.sems, b'.ptr x = b.ptr x ∧ b'.station.sem x = b.station.sem x) ∧
    ∀ m ∈ t.boxes, b'.station.box m = b.station.box m

/-- If `sem_one` is not created, neither `BYH_M` nor `NB_IOT` runs.  The first invocation that
creates it starts both or neither, and what uses `sem_two` only if that was created.  After that,
an invocation meets no thread. -/
def ProperBoot (c : Creations) (b : Board) : Prop :=
  if c.sem .one then
    if b.registered .iot then ∀ t, b.started t = false
    else (c.thread .byh = c.thread .nb) ∧
      ∀ t, c.thread t = true → .two ∈ t.sems → c.sem .two = true
  else b.started .byh = false ∧ b.started .nb = false

def Owed (b : Board) (a : BoardAct) (b' : Board) : Prop :=
  match a with
  | .invoke c => AllOrNothing b (enviroment c b).1 b'
  | .turn _ => True

def ProperAct (b : Board) (a : BoardAct) (_ : Board) : Prop :=
  match a with
  | .invoke c => ProperBoot c b
  | .turn _ => True

/-! ## what the tables say about the threads -/

section
variable {s s' : Station}

theorem wake_objects (s : Station) (o : Option Tid) :
    (s.wake o).two = s.two ∧ (s.wake o).led = s.led := by
  rcases wake_cases s o with h | ⟨-, h⟩ | ⟨-, h⟩ | ⟨_, -, h⟩ | ⟨_, -, h⟩ <;>
    rw [h] <;> exact ⟨rfl, rfl⟩

theorem nbStep_frame (h : nbStep s = some s') : s'.two = s.two ∧ s'.led = s.led := by
  unfold nbStep at h
  split at h
  · cases h
    exact wake_objects ..
  · cases h
    split <;> exact ⟨rfl, rfl⟩
  · cases h
  · dsimp only at h
    split at h <;> cases h <;> exact ⟨rfl, rfl⟩
  · cases h
  · cases h
    exact ⟨rfl, rfl⟩

/-- a thread leaves alone what it does not use -/
theorem turn_frame {a : Turn} (h : stationStep s a = some s') :
    (∀ x, x ∉ a.tid.sems → s'.sem x = s.sem x) ∧ ∀ m, m ∉ a.tid.boxes → s'.box m = s.box m := by
  have hled : s'.shake = s.shake →
      (∀ x, x ∉ Tid.led.sems → s'.sem x = s.sem x) ∧
        ∀ m, m ∉ Tid.led.boxes → s'.box m = s.box m := by
    intro hsame
    constructor
    · rintro (_ | _) hx
      · exact congrArg Shake.one hsame
      · exact absurd (by decide) hx
    · rintro (_ | _) hm
      · exact congrArg Shake.iot hsame
      · exact absurd (by decide) hm
  cases a with
  | byh smp =>
    have hsems : ∀ x, x ∈ Tid.byh.sems := by
      rintro (_ | _) <;> decide
    have hboxes : ∀ m, m ∈ Tid.byh.boxes := by
      rintro (_ | _) <;> decide
    exact ⟨fun x hx => absurd (hsems x) hx, fun m hm => absurd (hboxes m) hm⟩
  | nb =>
    obtain ⟨htwo, hbox⟩ := nbStep_frame h
    constructor
    · rintro (_ | _) hx
      · exact absurd (by decide) hx
      · exact htwo
    · rintro (_ | _) hm
      · exact absurd (by decide) hm
      · exact hbox
  | led => exact hled (shake_led (Or.inl h))
  | ledTimer => exact hled (shake_led (Or.inr h))

/-- `BYH_M` waits for the start signal -/
structure ByhAlone (s : Station) : Prop where
  nb : s.nbPc = .init
  one : s.one.value = 0
  byh : s.byhPc = .start ∨ s.byhPc = .waitOne
  published : s.published = []

theorem ByhAlone.led (h : ByhAlone s) (hsame : s'.shake = s.shake) : ByhAlone s' := by
  have hone : s'.one = s.one := congrArg Shake.one hsame
  have hbyh : s'.byhPc = s.byhPc := congrArg Shake.byh hsame
  have hnb : s'.nbPc = s.nbPc := congrArg Shake.nb hsame
  have hpub : s'.published = s.published := congrArg Shake.published hsame
  exact ⟨hnb.trans h.nb, by rw [hone, h.one], by rw [hbyh]; exact h.byh, hpub.trans h.published⟩

theorem byhAlone_step (s : Station) (a : Turn) (s' : Station) (h : ByhAlone s)
    (hstep : stationStep s a = some s') (ha : a.tid ≠ .nb) : ByhAlone s' := by
  cases a with
  | nb => exact absurd rfl ha
  | led => exact h.led (shake_led (Or.inl hstep))
  | ledTimer => exact h.led (shake_led (Or.inr hstep))
  | byh smp =>
    have hstep' : byhStep s smp = some s' := hstep
    unfold byhStep at hstep'
    rcases h.byh with hpc | hpc
    · have hone : s.one = ⟨0, s.one.suspended⟩ := by rw [← h.one]
      rw [hpc, hone, semTake_zero] at hstep'
      cases hstep'
      exact ⟨h.nb, rfl, Or.inr rfl, h.published⟩
    · rw [hpc] at hstep'
      cases hstep'

/-- **`BYH_M` waits on `NB_IOT`**: without it, no sample is ever published. -/
theorem byh_waits {as : List Turn} (h : ∀ a ∈ as, a.tid ≠ .nb)
    (hrun : Trace.run stationStep stationInit as = some s) : s.published = [] :=
  (Trace.run_inv byhAlone_step as stationInit s ⟨rfl, rfl, Or.inl rfl, rfl⟩
    (Trace.along_of_mem h stationInit) hrun).published

/-- `NB_IOT` waits for a sample, and `LED` polls -/
structure NbAlone (s : Station) : Prop where
  byh : s.byhPc = .start
  mails : s.iot.mails = []
  nb : s.nbPc.got = [] ∧ ∀ got, s.nbPc ≠ .report got
  reports : s.reports = []
  two : s.two.value = 0
  led : s.ledPc = .poll

theorem nbAlone_nb (h : NbAlone s) (hstep : nbStep s = some s') : NbAlone s' := by
  unfold nbStep at hstep
  cases hpc : s.nbPc with
  | init =>
    rw [hpc] at hstep
    cases hstep
    -- nobody else is suspended
    rcases wake_cases { s with one := (rtSemRelease s.one).2, nbPc := .take } (rtSemRelease s.one).1
      with e | ⟨hb, -⟩ | ⟨hn, -⟩ | ⟨_, hn, -⟩ | ⟨_, hl, -⟩
    · rw [e]
      exact ⟨h.byh, h.mails, ⟨rfl, fun _ hr => by cases hr⟩, h.reports, h.two, h.led⟩
    · exact absurd (h.byh.symm.trans hb) (fun e => by cases e)
    · cases hn
    · cases hn
    · exact absurd (h.led.symm.trans hl) (fun e => by cases e)
  | take =>
    rw [hpc] at hstep
    cases hstep
    split
    · exact ⟨h.byh, h.mails, ⟨rfl, fun _ hr => by cases hr⟩, h.reports, h.two, h.led⟩
    · exact ⟨h.byh, h.mails, ⟨rfl, fun _ hr => by cases hr⟩, h.reports, h.two, h.led⟩
  | waitOne =>
    rw [hpc] at hstep
    cases hstep
  | recv got =>
    rw [hpc, recv_nil s.iot .nb h.mails] at hstep
    cases hstep
    have hgot : got = [] := by
      have hg := h.nb.1
      rw [hpc] at hg
      exact hg
    exact ⟨h.byh, h.mails, ⟨hgot, fun _ hr => by cases hr⟩, h.reports, h.two, h.led⟩
  | waitMb got =>
    rw [hpc] at hstep
    cases hstep
  | report got => exact absurd hpc (h.nb.2 got)

theorem nbAlone_step (s : Station) (a : Turn) (s' : Station) (h : NbAlone s)
    (hstep : stationStep s a = some s') (ha : a.tid ≠ .byh) : NbAlone s' := by
  cases a with
  | byh smp => exact absurd rfl ha
  | nb => exact nbAlone_nb h hstep
  | led =>
    have hstep' : ledStep s = some s' := hstep
    have htry : rtSemTrytake s.two = (-rtEtimeout, s.two) := by
      unfold rtSemTrytake
      rw [h.two]
      exact if_neg (by decide)
    unfold ledStep at hstep'
    rw [h.led, htry] at hstep'
    cases hstep'
    exact ⟨h.byh, h.mails, h.nb, h.reports, h.two, rfl⟩
  | ledTimer =>
    have hstep' : ledTimerStep s = some s' := hstep
    unfold ledTimerStep at hstep'
    rw [h.led] at hstep'
    cases hstep'

/-- **`NB_IOT` waits on `BYH_M`**: without it, nothing is ever reported.  `LED` waits on nobody: it
polls. -/
theorem nb_waits {as : List Turn} (h : ∀ a ∈ as, a.tid ≠ .byh)
    (hrun : Trace.run stationStep stationInit as = some s) : s.reports = [] ∧ s.ledPc = .poll := by
  have hinv := Trace.run_inv nbAlone_step as stationInit s
    ⟨rfl, mails_init five_pos, ⟨rfl, fun _ h => by cases h⟩, rfl, rfl, rfl⟩
    (Trace.along_of_mem h stationInit) hrun
  exact ⟨hinv.reports, hinv.led⟩

end
/-! ## the three ways through an invocation -/

section
variable {b : Board} {c : Creations}

theorem semCreate_ptr_self (b : Board) (x : Sm) (ok : Bool) :
    (b.semCreate x ok).ptr x = if ok then some b.fresh else none := by
  unfold Board.semCreate
  cases ok <;> exact Function.update_self ..

theorem semCreate_ptr_other (b : Board) {x y : Sm} (h : y ≠ x) (ok : Bool) :
    (b.semCreate x ok).ptr y = b.ptr y := by
  unfold Board.semCreate
  cases ok <;> exact Function.update_of_ne h ..

theorem semCreate_sem_other (b : Board) {x y : Sm} (h : y ≠ x) (ok : Bool) :
    (b.semCreate x ok).station.sem y = b.station.sem y := by
  unfold Board.semCreate
  cases ok with
  | false => rfl
  | true =>
    cases x <;> cases y
    · exact absurd rfl h
    · rfl
    · rfl
    · exact absurd rfl h

theorem semCreate_box (b : Board) (x : Sm) (ok : Bool) (m : Mb) :
    (b.semCreate x ok).station.box m = b.station.box m := by
  unfold Board.semCreate
  cases ok <;> cases x <;> cases m <;> rfl

theorem semCreate_rest (b : Board) (x : Sm) (ok : Bool) :
    (b.semCreate x ok).registered = b.registered ∧ (b.semCreate x ok).started = b.started ∧
      (b.semCreate x ok).halted = b.halted := by
  unfold Board.semCreate
  cases ok <;> exact ⟨rfl, rfl, rfl⟩

theorem semCreate_fresh (b : Board) (x : Sm) (ok : Bool) :
    (b.semCreate x ok).fresh = if ok then b.fresh + 1 else b.fresh := by
  unfold Board.semCreate
  cases ok <;> rfl

/-- after the creation of `sem_two` the second check still passes -/
theorem semCreate_one (b : Board) (ok : Bool) :
    ((b.semCreate .one true).semCreate .two ok).ptr .one = some b.fresh := by
  rw [semCreate_ptr_other _ (show Sm.one ≠ .two by decide), semCreate_ptr_self]
  rfl

theorem enviroment_fails (h : c.sem .one = false) :
    enviroment c b = (some (-1), b.semCreate .one false) := by
  unfold enviroment
  rw [h]
  exact if_pos (semCreate_ptr_self b .one false)

theorem enviroment_goes_on (h : c.sem .one = true) :
    enviroment c b = enviromentTail c ((b.semCreate .one true).semCreate .two (c.sem .two)) := by
  have h1 : ¬ (b.semCreate .one true).ptr .one = none := by
    rw [semCreate_ptr_self]
    exact Option.some_ne_none _
  have h2 : ¬ ((b.semCreate .one true).semCreate .two (c.sem .two)).ptr .one = none := by
    rw [semCreate_one]
    exact Option.some_ne_none _
  unfold enviroment
  rw [h]
  dsimp only
  rw [if_neg h1, if_neg h2]

/-- the mailbox is registered already: the assertion of the kernel fails -/
theorem enviroment_again (h : c.sem .one = true) (hr : b.registered .iot = true) :
    enviroment c b = (none, { (b.semCreate .one true).semCreate .two (c.sem .two) with
      halted := true }) := by
  have hr' : ((b.semCreate .one true).semCreate .two (c.sem .two)).registered .iot = true := by
    rw [(semCreate_rest _ _ _).1, (semCreate_rest _ _ _).1, hr]
  rw [enviroment_goes_on h, enviromentTail, Board.mbInit, if_pos hr']

/-- the first invocation that comes to the mailboxes starts what can be created -/
structure Started (c : Creations) (b : Board) (ret : Option RtErr) (b' : Board) : Prop where
  ret : ret = some rtEok ↔ ∀ t, c.thread t = true
  ptr : b'.ptr = b.ptr
  fresh : b'.fresh = b.fresh
  registered : ∀ m, b'.registered m = true
  started : ∀ t, b'.started t = (c.thread t || b.started t)

theorem mbInit_free {m : Mb} (h : b.registered m = false) :
    b.mbInit m = some (rtEok, b.addBox m) := by
  unfold Board.mbInit
  rw [h]
  exact if_neg Bool.false_ne_true

theorem threadStart_ret (t : Tid) (ok : Bool) (r : RtErr × Board) :
    (Board.threadStart t ok r).1 = rtEok ↔ ok = true ∧ r.1 = rtEok := by
  unfold Board.threadStart
  cases ok with
  | false => exact ⟨fun h => absurd h rtError_ne_rtEok, fun h => absurd h.1 Bool.false_ne_true⟩
  | true => exact ⟨fun h => ⟨rfl, h⟩, fun h => h.2⟩

theorem threadStart_rest (t : Tid) (ok : Bool) (r : RtErr × Board) :
    (Board.threadStart t ok r).2.ptr = r.2.ptr ∧ (Board.threadStart t ok r).2.fresh = r.2.fresh ∧
      (Board.threadStart t ok r).2.registered = r.2.registered := by
  unfold Board.threadStart
  cases ok <;> exact ⟨rfl, rfl, rfl⟩

theorem threadStart_started (t : Tid) (ok : Bool) (r : RtErr × Board) :
    (Board.threadStart t ok r).2.started =
      Function.update r.2.started t (ok || r.2.started t) := by
  unfold Board.threadStart
  cases ok with
  | false =>
    rw [Bool.false_or, Function.update_eq_self]
    rfl
  | true => rfl

theorem enviromentTail_first (hi : b.registered .iot = false) (hl : b.registered .led = false) :
    Started c b (enviromentTail c b).1 (enviromentTail c b).2 := by
  have hl' : (b.addBox .iot).registered .led = false := by
    unfold Board.addBox
    dsimp only
    rw [Function.update_of_ne (by decide), hl]
  unfold enviromentTail
  rw [mbInit_free hi]
  dsimp only
  rw [if_neg (not_not_intro rfl), mbInit_free hl']
  dsimp only
  rw [if_neg (not_not_intro rfl)]
  constructor
  · rw [Option.some_inj, threadStart_ret, threadStart_ret, threadStart_ret]
    constructor
    · rintro ⟨h1, h2, h3, -⟩ t
      cases t with
      | byh => exact h2
      | nb => exact h3
      | led => exact h1
    · intro h
      exact ⟨h _, h _, h _, rfl⟩
  · rw [(threadStart_rest ..).1, (threadStart_rest ..).1, (threadStart_rest ..).1]
    rfl
  · rw [(threadStart_rest ..).2.1, (threadStart_rest ..).2.1, (threadStart_rest ..).2.1]
    rfl
  · intro m
    rw [(threadStart_rest ..).2.2, (threadStart_rest ..).2.2, (threadStart_rest ..).2.2]
    cases m <;> rfl
  · intro t
    rw [threadStart_started, threadStart_started, threadStart_started]
    cases t <;> rfl

end

/-! ## the station of a complete boot -/

/-- nothing fails -/
def allCreated : Creations := ⟨fun _ => true, fun _ => true⟩

/-- everything is there -/
structure Ready (b : Board) : Prop where
  halted : b.halted = false
  started : ∀ t, b.started t = true
  ptr : ∀ x, (b.ptr x).isSome = true

theorem Ready.step {b : Board} (h : Ready b) (a : Turn) :
    boardStep b (.turn a) =
      (stationStep b.station a).map fun s => { b with station := s } := by
  have hcalls : (b.station.calls a.tid).all (fun x => (b.ptr x).isSome) = true := by
    cases b.station.calls a.tid with
    | none => rfl
    | some x => exact h.ptr x
  unfold boardStep
  dsimp only
  rw [h.halted, h.started, hcalls]
  rfl

theorem Ready.run {b : Board} (h : Ready b) (as : List Turn) :
    (Trace.run boardStep b (as.map .turn)).map Board.station =
      Trace.run stationStep b.station as := by
  induction as generalizing b with
  | nil => rfl
  | cons a as ih =>
    rw [List.map_cons, Trace.run_cons, Trace.run_cons, h.step]
    cases stationStep b.station a with
    | none => rfl
    | some s => exact ih (b := { b with station := s }) ⟨h.halted, h.started, h.ptr⟩

/-- **A complete boot starts the station**: from then on a board without invocations runs as the
station does. -/
theorem boot_station (as : List Turn) :
    (Trace.run boardStep boardInit (.invoke allCreated :: as.map .turn)).map Board.station =
      Trace.run stationStep stationInit as := by
  have hready : Ready (enviroment allCreated boardInit).2 := by
    refine ⟨rfl, fun t => ?_, fun x => ?_⟩
    · cases t <;> rfl
    · cases x <;> rfl
  rw [Trace.run_cons_some (show boardStep boardInit (.invoke allCreated) = some _ from rfl)]
  exact hready.run as

/-! ## runs -/

/-- the invariant of a proper run -/
structure BootInv (b : Board) : Prop where
  boxes : b.registered .led = b.registered .iot
  idle : b.registered .iot = false → ∀ t, b.started t = false
  pair : b.started .byh = b.started .nb
  one : b.started .byh = true → b.ptr .one ≠ none
  two : ∀ t, b.started t = true → .two ∈ t.sems → b.ptr .two ≠ none
  fresh : ∀ x k, b.ptr x = some k → k < b.fresh

theorem boot_init : BootInv boardInit where
  boxes := rfl
  idle := fun _ _ => rfl
  pair := rfl
  one := fun h => absurd h Bool.false_ne_true
  two := fun _ h => absurd h Bool.false_ne_true
  fresh := fun _ _ h => by cases h

theorem waitsOn_iff {t u : Tid} : t.waitsOn u ↔ t = .byh ∧ u = .nb ∨ t = .nb ∧ u = .byh := by
  unfold Tid.waitsOn
  cases t <;> cases u <;> decide

/-- the partners of the running threads run -/
theorem BootInv.partners {b : Board} (h : BootInv b) {t u : Tid} (ht : b.started t = true)
    (hw : t.waitsOn u) : b.started u = true := by
  have hpair := h.pair
  rcases waitsOn_iff.mp hw with ⟨rfl, rfl⟩ | ⟨rfl, rfl⟩
  · rw [← hpair, ht]
  · rw [hpair, ht]

/-- pointers that an invocation sets to objects that did not exist are not the old ones -/
theorem BootInv.ne_fresh {b : Board} (h : BootInv b) {x : Sm} {k : Nat} (hk : b.fresh ≤ k) :
    some k ≠ b.ptr x := by
  intro e
  have := h.fresh x k e.symm
  omega

section
variable {b : Board} {c : Creations}

/-! ### `sem_one` is not created -/

theorem fails_iff (h : BootInv b) :
    (b.started .byh = false ∧ b.started .nb = false) ↔
      AllOrNothing b (some (-1)) (b.semCreate .one false) := by
  obtain ⟨hreg, hst, -⟩ := semCreate_rest b .one false
  constructor
  · rintro ⟨hbyh, hnb⟩
    refine ⟨fun t h0 h1 => ?_, fun _ t u ht hw => ?_, fun t ht => ?_⟩
    · rw [hst, h0] at h1
      cases h1
    · rw [hst] at ht ⊢
      exact h.partners ht hw
    · -- only `LED` may run, and it does not use `sem_one`
      cases t with
      | byh => rw [hbyh] at ht; cases ht
      | nb => rw [hnb] at ht; cases ht
      | led =>
        refine ⟨fun x hx => ?_, fun m _ => semCreate_box ..⟩
        have e : x = .two := List.mem_singleton.mp hx
        rw [e]
        exact ⟨semCreate_ptr_other b (by decide) false, semCreate_sem_other b (by decide) false⟩
  · intro hp
    have hptr : (b.semCreate .one false).ptr .one = none := semCreate_ptr_self b .one false
    have hbyh : b.started .byh = false := by
      rw [Bool.eq_false_iff]
      intro ht
      have hsame := ((hp.unharmed .byh ht).1 .one (by decide)).1
      exact h.one ht (hsame.symm.trans hptr)
    exact ⟨hbyh, by rw [← h.pair, hbyh]⟩

theorem fails_inv (h : BootInv b) (hbyh : b.started .byh = false) :
    BootInv (b.semCreate .one false) := by
  obtain ⟨hreg, hst, -⟩ := semCreate_rest b .one false
  have htwo : (b.semCreate .one false).ptr .two = b.ptr .two :=
    semCreate_ptr_other b (by decide) false
  refine ⟨?_, ?_, ?_, ?_, ?_, ?_⟩
  · rw [hreg]
    exact h.boxes
  · rw [hreg, hst]
    exact h.idle
  · rw [hst]
    exact h.pair
  · rw [hst, hbyh]
    intro hf
    cases hf
  · rw [hst, htwo]
    exact h.two
  · intro x k hk
    rw [semCreate_fresh]
    cases x with
    | one =>
      rw [semCreate_ptr_self] at hk
      cases hk
    | two =>
      rw [htwo] at hk
      exact h.fresh _ _ hk

/-! ### the mailboxes are registered already -/

/-- both semaphores are assigned, whatever was there -/
theorem semCreate_both (b : Board) (ok : Bool) {b' : Board}
    (hb : b' = (b.semCreate .one true).semCreate .two ok) :
    b'.registered = b.registered ∧ b'.started = b.started ∧ b'.ptr .one = some b.fresh ∧
      b'.ptr .two = (if ok then some (b.fresh + 1) else none) ∧
      ∀ x k, b'.ptr x = some k → k < b'.fresh := by
  have hone : b'.ptr .one = some b.fresh := by rw [hb, semCreate_one]
  have htwo : b'.ptr .two = (if ok then some (b.fresh + 1) else none) := by
    rw [hb, semCreate_ptr_self, semCreate_fresh]
    rfl
  have hfresh : b'.fresh = if ok then b.fresh + 2 else b.fresh + 1 := by
    rw [hb, semCreate_fresh, semCreate_fresh]
    rfl
  refine ⟨?_, ?_, hone, htwo, ?_⟩
  · rw [hb, (semCreate_rest _ _ _).1, (semCreate_rest _ _ _).1]
  · rw [hb, (semCreate_rest _ _ _).2.1, (semCreate_rest _ _ _).2.1]
  · intro x k hk
    rw [hfresh]
    cases x with
    | one =>
      have e : b.fresh = k := Option.some.inj (hone.symm.trans hk)
      split <;> omega
    | two =>
      rw [htwo] at hk
      cases ok with
      | false => cases hk
      | true =>
        have e : b.fresh + 1 = k := Option.some.inj hk
        rw [if_pos rfl]
        omega

theorem again_iff (h : BootInv b) {ok : Bool} {b' : Board}
    (hb : b' = (b.semCreate .one true).semCreate .two ok) :
    (∀ t, b.started t = false) ↔ AllOrNothing b none { b' with halted := true } := by
  obtain ⟨-, hst, hone, htwo, -⟩ := semCreate_both b ok hb
  constructor
  · intro hno
    refine ⟨fun t h0 h1 => ?_, fun _ t u ht _ => ?_, fun t ht => ?_⟩
    · replace h1 : b'.started t = true := h1
      rw [hst, h0] at h1
      cases h1
    · replace ht : b'.started t = true := ht
      rw [hst, hno] at ht
      cases ht
    · rw [hno] at ht
      cases ht
  · intro hp
    have hbyh : b.started .byh = false := by
      rw [Bool.eq_false_iff]
      intro ht
      have hsame : b'.ptr .one = b.ptr .one := ((hp.unharmed .byh ht).1 .one (by decide)).1
      rw [hone] at hsame
      exact h.ne_fresh (Nat.le_refl _) hsame
    have hled : b.started .led = false := by
      rw [Bool.eq_false_iff]
      intro ht
      have hsame : b'.ptr .two = b.ptr .two := ((hp.unharmed .led ht).1 .two (by decide)).1
      rw [htwo] at hsame
      cases ok with
      | false => exact h.two .led ht (by decide) hsame.symm
      | true => exact h.ne_fresh (Nat.le_succ _) hsame
    intro t
    cases t with
    | byh => exact hbyh
    | nb => rw [← h.pair, hbyh]
    | led => exact hled

theorem again_inv (h : BootInv b) (hno : ∀ t, b.started t = false) {ok : Bool} {b' : Board}
    (hb : b' = (b.semCreate .one true).semCreate .two ok) :
    BootInv { b' with halted := true } := by
  obtain ⟨hreg, hst, -, -, hfresh⟩ := semCreate_both b ok hb
  have hno' : ∀ t, b'.started t = false := fun t => by rw [hst, hno]
  have habsurd : ∀ t {P : Prop}, b'.started t = true → P := fun t _ ht => by
    rw [hno' t] at ht
    cases ht
  refine ⟨?_, fun _ => hno', ?_, habsurd .byh, fun t ht => habsurd t ht, hfresh⟩
  · show b'.registered .led = b'.registered .iot
    rw [hreg, h.boxes]
  · show b'.started .byh = b'.started .nb
    rw [hno', hno']

/-! ### the threads are started -/

theorem first_started (h : BootInv b) (hr : b.registered .iot = false) {b₁ b' : Board}
    {ret : Option RtErr} (hb : b₁ = (b.semCreate .one true).semCreate .two (c.sem .two))
    (hs : Started c b₁ ret b') : (∀ t, b'.started t = c.thread t) ∧ b'.ptr .one ≠ none ∧
      (b'.ptr .two ≠ none ↔ c.sem .two = true) := by
  obtain ⟨-, hst, hone, htwo, -⟩ := semCreate_both b _ hb
  refine ⟨fun t => ?_, ?_, ?_⟩
  · rw [hs.started, hst, h.idle hr, Bool.or_false]
  · rw [hs.ptr, hone]
    exact Option.some_ne_none _
  · rw [hs.ptr, htwo]
    cases c.sem .two with
    | true => exact ⟨fun _ => rfl, fun _ => Option.some_ne_none _⟩
    | false => exact ⟨fun hn => absurd rfl hn, fun hf => absurd hf Bool.false_ne_true⟩

theorem first_iff (h : BootInv b) (hr : b.registered .iot = false) {b₁ b' : Board}
    {ret : Option RtErr} (hb : b₁ = (b.semCreate .one true).semCreate .two (c.sem .two))
    (hs : Started c b₁ ret b') :
    (c.thread .byh = c.thread .nb ∧ ∀ t, c.thread t = true → .two ∈ t.sems → c.sem .two = true) ↔
      AllOrNothing b ret b' := by
  obtain ⟨hstarted, hone, htwo⟩ := first_started h hr hb hs
  constructor
  · rintro ⟨hpair, hused⟩
    refine ⟨fun t _ ht => ⟨fun x hx => ?_, fun m _ => hs.registered m⟩, fun _ t u ht hw => ?_,
      fun t ht => ?_⟩
    · rw [hstarted] at ht
      cases x with
      | one => exact hone
      | two => exact htwo.mpr (hused t ht hx)
    · rw [hstarted] at ht ⊢
      rcases waitsOn_iff.mp hw with ⟨rfl, rfl⟩ | ⟨rfl, rfl⟩
      · rw [← hpair, ht]
      · rw [hpair, ht]
    · rw [h.idle hr] at ht
      cases ht
  · intro hp
    refine ⟨?_, fun t ht hx => ?_⟩
    · -- if all threads are created there is nothing to compare
      by_cases hall : ∀ t, c.thread t = true
      · rw [hall, hall]
      · have hpartner : ∀ t u, t.waitsOn u → c.thread t = true → c.thread u = true := by
          intro t u hw ht
          rw [← hstarted] at ht ⊢
          exact hp.partners (fun e => hall (hs.ret.mp e)) t u ht hw
        rw [Bool.eq_iff_iff]
        exact ⟨hpartner .byh .nb (waitsOn_iff.mpr (Or.inl ⟨rfl, rfl⟩)),
          hpartner .nb .byh (waitsOn_iff.mpr (Or.inr ⟨rfl, rfl⟩))⟩
    · exact htwo.mp ((hp.created t (h.idle hr t) (by rw [hstarted, ht])).1 .two hx)

theorem first_inv (h : BootInv b) (hr : b.registered .iot = false) {b₁ b' : Board}
    {ret : Option RtErr} (hb : b₁ = (b.semCreate .one true).semCreate .two (c.sem .two))
    (hs : Started c b₁ ret b') (hpair : c.thread .byh = c.thread .nb)
    (hused : ∀ t, c.thread t = true → .two ∈ t.sems → c.sem .two = true) : BootInv b' := by
  obtain ⟨hstarted, hone, htwo⟩ := first_started h hr hb hs
  refine ⟨?_, ?_, ?_, fun _ => hone, ?_, ?_⟩
  · rw [hs.registered, hs.registered]
  · intro hf
    rw [hs.registered] at hf
    cases hf
  · rw [hstarted, hstarted, hpair]
  · intro t ht hx
    rw [hstarted] at ht
    exact htwo.mpr (hused t ht hx)
  · rw [hs.ptr, hs.fresh]
    exact (semCreate_both b _ hb).2.2.2.2

/-! ### all invocations -/

theorem boxes_free (h : BootInv b) (hr : b.registered .iot = false) (ok : Bool) (m : Mb) :
    ((b.semCreate .one true).semCreate .two ok).registered m = false := by
  rw [(semCreate_both b ok rfl).1]
  cases m with
  | iot => exact hr
  | led => rw [h.boxes, hr]

theorem properBoot_iff (h : BootInv b) :
    ProperBoot c b ↔ AllOrNothing b (enviroment c b).1 (enviroment c b).2 := by
  unfold ProperBoot
  cases hone : c.sem .one with
  | false =>
    rw [if_neg Bool.false_ne_true, enviroment_fails hone]
    exact fails_iff h
  | true =>
    rw [if_pos rfl]
    cases hr : b.registered .iot with
    | true =>
      rw [if_pos rfl, enviroment_again hone hr]
      exact again_iff h rfl
    | false =>
      rw [if_neg Bool.false_ne_true, enviroment_goes_on hone]
      exact first_iff h hr rfl
        (enviromentTail_first (boxes_free h hr _ _) (boxes_free h hr _ _))

theorem properBoot_inv (h : BootInv b) (ho : ProperBoot c b) : BootInv (enviroment c b).2 := by
  unfold ProperBoot at ho
  cases hone : c.sem .one with
  | false =>
    rw [hone, if_neg Bool.false_ne_true] at ho
    rw [enviroment_fails hone]
    exact fails_inv h ho.1
  | true =>
    rw [hone, if_pos rfl] at ho
    cases hr : b.registered .iot with
    | true =>
      rw [hr, if_pos rfl] at ho
      rw [enviroment_again hone hr]
      exact again_inv h ho rfl
    | false =>
      rw [hr, if_neg Bool.false_ne_true] at ho
      rw [enviroment_goes_on hone]
      exact first_inv h hr rfl
        (enviromentTail_first (boxes_free h hr _ _) (boxes_free h hr _ _)) ho.1 ho.2

end

theorem boardStep_cases {b b' : Board} {a : BoardAct} (hstep : boardStep b a = some b') :
    (∃ c, a = .invoke c ∧ b' = (enviroment c b).2) ∨
      ∃ s t, a = .turn t ∧ b' = { b with station := s } := by
  cases a with
  | invoke c =>
    unfold boardStep at hstep
    dsimp only at hstep
    split at hstep
    · cases hstep
    · exact Or.inl ⟨c, rfl, (Option.some.inj hstep).symm⟩
  | turn t =>
    unfold boardStep at hstep
    dsimp only at hstep
    split at hstep
    · obtain ⟨s, -, hs⟩ := Option.map_eq_some_iff.mp hstep
      exact Or.inr ⟨s, t, rfl, hs.symm⟩
    · cases hstep

theorem boot_step_iff (b : Board) (a : BoardAct) (b' : Board) (h : BootInv b)
    (hstep : boardStep b a = some b') : ProperAct b a b' ↔ Owed b a b' := by
  rcases boardStep_cases hstep with ⟨c, rfl, rfl⟩ | ⟨s, t, rfl, -⟩
  · exact properBoot_iff h
  · exact Iff.rfl

theorem boot_step_inv (b : Board) (a : BoardAct) (b' : Board) (h : BootInv b)
    (hstep : boardStep b a = some b') (ho : ProperAct b a b') : BootInv b' := by
  rcases boardStep_cases hstep with ⟨c, rfl, rfl⟩ | ⟨s, t, rfl, rfl⟩
  · exact properBoot_inv h ho
  · exact ⟨h.boxes, h.idle, h.pair, h.one, h.two, h.fresh⟩

/-- **The invocations of a run are all-or-nothing exactly if they are proper.** -/
theorem boot_iff (as : List BoardAct) :
    Trace.Along boardStep ProperAct boardInit as ↔ Trace.Along boardStep Owed boardInit as :=
  Trace.along_iff_of_step boot_step_iff boot_step_inv boot_init as

/-- `sem_two` is not created, and its users are started; `BYH_M` is not created, and `NB_IOT` waits
for it; the command is entered after the boot, and the threads lose their semaphores -/
theorem boot_fails :
    ¬ Trace.Along boardStep Owed boardInit [.invoke { allCreated with sem := (· ≠ .two) }] ∧
    ¬ Trace.Along boardStep Owed boardInit [.invoke { allCreated with thread := (· ≠ .byh) }] ∧
    ¬ Trace.Along boardStep Owed boardInit [.invoke allCreated, .invoke allCreated] := by
  refine ⟨fun h => ?_, fun h => ?_, fun h => ?_⟩
  · obtain ⟨h1, -⟩ := (Trace.along_cons rfl _).mp h
    exact (h1.created .led rfl rfl).1 .two (by decide) rfl
  · obtain ⟨h1, -⟩ := (Trace.along_cons rfl _).mp h
    have hbyh := h1.partners (by decide) .nb .byh rfl (waitsOn_iff.mpr (Or.inr ⟨rfl, rfl⟩))
    exact absurd hbyh (by decide)
  · obtain ⟨-, h2⟩ := (Trace.along_cons rfl _).mp h
    obtain ⟨h3, -⟩ := (Trace.along_cons rfl _).mp h2
    have hptr := ((h3.unharmed .nb rfl).1 .one (by decide)).1
    exact absurd hptr (by decide)

end ENV

import Enviroment.Kernel.Ipc
import Enviroment.Lib.Trace

/-!
# The three threads of the station (`applications/enviroment.c`)

`BYH_M_thread_entry` publishes samples, `NB_IOT_thread_entry` reports them, `LED_thread_entry`
shows them.  They share two semaphores and two mailboxes of five mails.  A step is one kernel call
of one thread; between two kernel calls anything may happen, and a thread that a call suspends has
no step until another thread or its timer resumes it.

* `ByhPc`, `NbPc`, `LedPc`    the places between the kernel calls, with the locals that matter;
* `Station`                   kernel objects, places, and what was published, accepted, reported;
* `byhStep`, `nbStep`, `ledStep`, `ledTimerStep`, `stationStep`   the steps.

The results of `rt_mb_send` are kept in the place of the sensor thread: the source ignores them.
-/

namespace ENV

inductive Tid where
  | byh
  | nb
  | led
deriving DecidableEq

/-- the values that one cycle sends to each mailbox -/
structure Sample where
  t : Mail
  h : Mail
  n : Mail
  p2 : Mail
  p10 : Mail
deriving DecidableEq

/-- in the order of the sends -/
def Sample.mails (smp : Sample) : List Mail := [smp.t, smp.h, smp.n, smp.p2, smp.p10]

theorem Sample.length_mails (smp : Sample) : smp.mails.length = 5 := rfl

/-! ## places -/

inductive ByhPc where
  /-- before `rt_sem_take(sem_one, RT_WAITING_FOREVER)` -/
  | start
  /-- suspended there -/
  | waitOne
  /-- initialising, reading the sensor, waiting for the next hour -/
  | acquire
  /-- the sends of `smp` to `b` so far returned `res` -/
  | send (b : Mb) (smp : Sample) (res : List RtErr)
  | releaseOne
  | releaseTwo

inductive NbPc where
  /-- in `NB_IOT_Init`, before `rt_sem_release(sem_one)` -/
  | init
  /-- before the `rt_sem_take` of the loop -/
  | take
  /-- suspended there -/
  | waitOne
  /-- before the next of the five `rt_mb_recv` -/
  | recv (got : List Mail)
  /-- suspended in it -/
  | waitMb (got : List Mail)
  /-- all five received: print them and send them off -/
  | report (got : List Mail)

inductive LedPc where
  /-- before `rt_sem_trytake(sem_two)` -/
  | poll
  /-- before the next of the five `rt_mb_recv`; a receive that timed out left `none` -/
  | recv (got : List (Option Mail))
  /-- suspended in it, with the timer running -/
  | waitMb (got : List (Option Mail))

/-- the mails that the current round has received -/
def NbPc.got : NbPc → List Mail
  | .recv got | .waitMb got | .report got => got
  | _ => []

def LedPc.got : LedPc → List (Option Mail)
  | .recv got | .waitMb got => got
  | _ => []

/-- the sensor thread is past its first `rt_sem_take` -/
def ByhPc.passed : ByhPc → Prop
  | .start | .waitOne => False
  | _ => True

/-! ## state -/

structure Station where
  one : Semaphore Tid
  two : Semaphore Tid
  iot : Mailbox Tid 5
  led : Mailbox Tid 5
  byhPc : ByhPc
  nbPc : NbPc
  ledPc : LedPc
  /-- the samples whose sends have begun -/
  published : List Sample
  /-- the mails that each mailbox has accepted -/
  iotLog : List Mail
  ledLog : List Mail
  /-- the tuples that `NB_IOT` printed into its report -/
  reports : List (List Mail)
  /-- the rounds of `LED`: what each of the five receives gave -/
  rounds : List (List (Option Mail))
  /-- releases of `sem_one` by `BYH_M` -/
  releases : Nat
  /-- passes of `NB_IOT` through the `rt_sem_take` of its loop -/
  passes : Nat

def stationInit : Station :=
  ⟨rtSemCreate 0, rtSemCreate 0, rtMbInit 5 (by decide), rtMbInit 5 (by decide),
    .start, .init, .poll, [], [], [], [], [], 0, 0⟩

def Station.box (s : Station) : Mb → Mailbox Tid 5
  | .iot => s.iot
  | .led => s.led

/-- a resumed thread returns from the call that suspended it; `rt_mb_recv` looks again -/
def Station.wake (s : Station) : Option Tid → Station
  | none => s
  | some .byh =>
    match s.byhPc with
    | .waitOne => { s with byhPc := .acquire }
    | _ => s
  | some .nb =>
    match s.nbPc with
    | .waitOne => { s with nbPc := .recv [], passes := s.passes + 1 }
    | .waitMb got => { s with nbPc := .recv got }
    | _ => s
  | some .led =>
    match s.ledPc with
    | .waitMb got => { s with ledPc := .recv got }
    | _ => s

/-! ## steps -/

/-- `rt_mb_send` to one of the mailboxes: result, resumed receiver, state -/
def Station.mbSend (s : Station) (b : Mb) (v : Mail) : RtErr × Option Tid × Station :=
  let r := rtMbSend (s.box b) v
  match b with
  | .iot => (r.1, r.2.1,
      { s with iot := r.2.2, iotLog := if r.1 = rtEok then s.iotLog ++ [v] else s.iotLog })
  | .led => (r.1, r.2.1,
      { s with led := r.2.2, ledLog := if r.1 = rtEok then s.ledLog ++ [v] else s.ledLog })

/-- five sends to `iot_mb`, five to `led_mb`, then the releases -/
def afterSend (b : Mb) (smp : Sample) (res : List RtErr) : ByhPc :=
  if res.length = 5 then
    match b with
    | .iot => .send .led smp []
    | .led => .releaseOne
  else .send b smp res

def byhStep (s : Station) (smp : Sample) : Option Station :=
  match s.byhPc with
  | .start =>
    let r := rtSemTake s.one .byh
    some { s with one := r.2, byhPc := if r.1 then .acquire else .waitOne }
  | .waitOne => none
  | .acquire => some { s with byhPc := .send .iot smp [], published := s.published ++ [smp] }
  | .send b cur res =>
    match cur.mails[res.length]? with
    | none => none
    | some v =>
      let r := s.mbSend b v
      some (Station.wake { r.2.2 with byhPc := afterSend b cur (res ++ [r.1]) } r.2.1)
  | .releaseOne =>
    let r := rtSemRelease s.one
    some (Station.wake
      { s with one := r.2, byhPc := .releaseTwo, releases := s.releases + 1 } r.1)
  | .releaseTwo =>
    let r := rtSemRelease s.two
    some (Station.wake { s with two := r.2, byhPc := .acquire } r.1)

def nbStep (s : Station) : Option Station :=
  match s.nbPc with
  | .init =>
    let r := rtSemRelease s.one
    some (Station.wake { s with one := r.2, nbPc := .take } r.1)
  | .take =>
    let r := rtSemTake s.one .nb
    some (if r.1 then { s with one := r.2, nbPc := .recv [], passes := s.passes + 1 }
      else { s with one := r.2, nbPc := .waitOne })
  | .waitOne => none
  | .recv got =>
    let r := rtMbRecv s.iot .nb
    match r.1 with
    | some v =>
      let got := got ++ [v]
      some { s with iot := r.2, nbPc := if got.length = 5 then .report got else .recv got }
    | none => some { s with iot := r.2, nbPc := .waitMb got }
  | .waitMb _ => none
  | .report got => some { s with reports := s.reports ++ [got], nbPc := .take }

/-- after the fifth receive the round is over and the texts are redrawn -/
def Station.ledNext (s : Station) (got : List (Option Mail)) : Station :=
  if got.length = 5 then { s with rounds := s.rounds ++ [got], ledPc := .poll }
  else { s with ledPc := .recv got }

def ledStep (s : Station) : Option Station :=
  match s.ledPc with
  | .poll =>
    let r := rtSemTrytake s.two
    some { s with two := r.2, ledPc := if r.1 = rtEok then .recv [] else .poll }
  | .recv got =>
    let r := rtMbRecv s.led .led
    match r.1 with
    | some v => some (Station.ledNext { s with led := r.2 } (got ++ [some v]))
    | none => some { s with led := r.2, ledPc := .waitMb got }
  | .waitMb _ => none

/-- the timer of a receive runs out: the thread leaves the list of suspended receivers -/
def ledTimerStep (s : Station) : Option Station :=
  match s.ledPc with
  | .waitMb got =>
    some (Station.ledNext { s with led := { s.led with suspended := s.led.suspended.erase .led } }
      (got ++ [none]))
  | _ => none

/-- whose turn it is; the sensor thread publishes `smp` if it begins a publication -/
inductive Turn where
  | byh (smp : Sample)
  | nb
  | led
  | ledTimer

def stationStep (s : Station) : Turn → Option Station
  | .byh smp => byhStep s smp
  | .nb => nbStep s
  | .led => ledStep s
  | .ledTimer => ledTimerStep s

/-! ## what waking leaves alone -/

section
variable (s : Station) (o : Option Tid)

/-- apart from its place and the pass of `NB_IOT`, waking a thread changes nothing -/
theorem wake_cases : (s.wake o = s) ∨
    (s.byhPc = .waitOne ∧ s.wake o = { s with byhPc := .acquire }) ∨
    (s.nbPc = .waitOne ∧ s.wake o = { s with nbPc := .recv [], passes := s.passes + 1 }) ∨
    (∃ got, s.nbPc = .waitMb got ∧ s.wake o = { s with nbPc := .recv got }) ∨
    (∃ got, s.ledPc = .waitMb got ∧ s.wake o = { s with ledPc := .recv got }) := by
  cases o with
  | none => exact Or.inl rfl
  | some t =>
    cases t with
    | byh =>
      cases h : s.byhPc with
      | waitOne => exact Or.inr (Or.inl ⟨rfl, by simp only [Station.wake, h]⟩)
      | _ => exact Or.inl (by simp only [Station.wake, h])
    | nb =>
      cases h : s.nbPc with
      | waitOne => exact Or.inr (Or.inr (Or.inl ⟨rfl, by simp only [Station.wake, h]⟩))
      | waitMb got =>
        exact Or.inr (Or.inr (Or.inr (Or.inl ⟨got, rfl, by simp only [Station.wake, h]⟩)))
      | _ => exact Or.inl (by simp only [Station.wake, h])
    | led =>
      cases h : s.ledPc with
      | waitMb got =>
        exact Or.inr (Or.inr (Or.inr (Or.inr ⟨got, rfl, by simp only [Station.wake, h]⟩)))
      | _ => exact Or.inl (by simp only [Station.wake, h])

end

end ENV

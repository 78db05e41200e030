import Enviroment.Kernel.Ipc
import Enviroment.Lib.Trace
import Enviroment.Lib.WakeUp

/-!
# A mailbox between any number of threads (`ipc.c`)

`rt_mb_send_wait` and `rt_mb_recv` with their timeouts: a thread that finds the mailbox full (empty)
sleeps in a list of its own; whoever takes (brings) a mail resumes the first one, and that one looks
again when it runs.  Until then another thread may have been faster.

The priorities are constant here: `rt_thread_control` does not sort again the list in which the
thread sleeps.

* `mbStep`               a step is what a thread does until it sleeps or returns;
* `MbInv`, `mbInv_step`  the mails are a queue, and both lists are kept in order;
* `mb_fifo`              every mail is received once, in the order of the sends;
* `mb_awake`             no wake-up is lost: nobody sleeps on a mail, or on a place; and with
                         `RT_IPC_FLAG_PRIO` the most urgent sleeper is the first.
-/

set_option linter.unusedSectionVars false

namespace ENV

open Trace WakeUp

/-! ## the calls -/

inductive MbCall where
  /-- `rt_mb_send_wait(mb, value, timeout)`; `rt_mb_send` is the one with timeout `0` -/
  | send (value : Mail)
  /-- `rt_mb_recv(mb, &value, timeout)` -/
  | recv

/-- `suspend_sender_thread`, and the list of the parent object -/
inductive Half where
  | senders
  | receivers
deriving DecidableEq

def MbCall.half : MbCall → Half
  | .send _ => .senders
  | .recv => .receivers

/-- the result when there is no time to wait -/
def MbCall.refusal : MbCall → RtErr
  | .send _ => -rtEfull
  | .recv => -rtEtimeout

/-- where a thread is -/
inductive MbPc where
  /-- outside; the last call has returned `ret` -/
  | idle (ret : RtErr)
  /-- in front of the loop -/
  | test (call : MbCall) (timeout : Int)
  /-- suspended since `start` -/
  | asleep (call : MbCall) (timeout : Int) (start : BitVec 32)
  /-- resumed, and not run yet -/
  | woken (call : MbCall) (timeout : Int) (start : BitVec 32)

def MbPc.pos (half : Half) : MbPc → Waiter
  | .asleep call _ _ => if call.half = half then .asleep else .out
  | .woken call _ _ => if call.half = half then .woken else .out
  | .idle _ | .test _ _ => .out

/-- `rt_thread_resume` -/
def MbPc.resume : MbPc → MbPc
  | .asleep call timeout start => .woken call timeout start
  | pc => pc

/-- what is left of the timeout at tick `now`, as the `rt_int32_t` that it is -/
def mbRemaining (timeout : Int) (start now : BitVec 32) : Int :=
  if timeout > 0 then max 0 (BitVec.ofInt 32 timeout - (now - start)).toInt else timeout

structure MbSt (ι : Type*) (n : Nat) where
  ring : RingBuffer Mail n
  /-- the two lists; who is resumed and has not run yet is bookkeeping -/
  room : Half → WaitRoom ι
  tick : BitVec 32
  pc : ι → MbPc
  /-- bookkeeping: the mails of the sends that succeeded -/
  accepted : List Mail
  /-- bookkeeping: the mails that left, and to whom; `none` for a reset -/
  out : List (Option ι × Mail)

section
variable {ι : Type*} [DecidableEq ι] {n : Nat}

/-- the first sleeper of a list is resumed, if there is one -/
def MbSt.resume (s : MbSt ι n) (half : Half) : MbSt ι n :=
  match (s.room half).asleep with
  | [] => s
  | j :: _ =>
    { s with
      room := Function.update s.room half (s.room half).wake
      pc := Function.update s.pc j (s.pc j).resume }

/-- `i` returns from its call -/
def MbSt.ret (s : MbSt ι n) (i : ι) (half : Half) (ret : RtErr) : MbSt ι n :=
  { s with
    room := Function.update s.room half ((s.room half).look i)
    pc := Function.update s.pc i (.idle ret) }

/-- `i` is suspended -/
def MbSt.suspend (prio : ι → Nat) (flag : IpcFlag) (s : MbSt ι n) (i : ι) (call : MbCall)
    (timeout : Int) : MbSt ι n :=
  let r := (s.room call.half).look i
  { s with
    room := Function.update s.room call.half { r with
      asleep := rtIpcListSuspend prio flag r.asleep i }
    pc := Function.update s.pc i (.asleep call timeout s.tick) }

/-- one turn of the loop: the mail is moved, or there is no time, or the thread is suspended -/
def MbSt.attempt (prio : ι → Nat) (flag : IpcFlag) (s : MbSt ι n) (i : ι) (call : MbCall)
    (timeout : Int) : MbSt ι n :=
  let block := if timeout = 0 then s.ret i call.half call.refusal
    else s.suspend prio flag i call timeout
  match call with
  | .send value =>
    if h : s.ring.entry < n then
      MbSt.resume { s.ret i .senders rtEok with
        ring := s.ring.push h value
        accepted := s.accepted ++ [value] } .receivers
    else block
  | .recv =>
    if h : 0 < s.ring.entry then
      MbSt.resume { s.ret i .receivers rtEok with
        ring := s.ring.pop h
        out := s.out ++ [(some i, s.ring.head)] } .senders
    else block

inductive MbAct (ι : Type*) where
  | call (i : ι) (call : MbCall) (timeout : Int)
  /-- `i` runs on -/
  | go (i : ι)
  /-- the timer of `i` -/
  | expire (i : ι)
  | tick
  /-- `rt_mb_control(mb, RT_IPC_CMD_RESET, ..)` -/
  | reset

/-- the sleepers of a reset mailbox return with an error -/
def MbPc.reset : MbPc → MbPc
  | .asleep _ _ _ => .idle (-rtError)
  | pc => pc

/-- the ring of a reset mailbox -/
def ringReset (r : RingBuffer Mail n) : RingBuffer Mail n :=
  ⟨r.buf, 0, 0, 0, Nat.zero_le n, Nat.lt_of_le_of_lt (Nat.zero_le _) r.out_lt,
    (slot_zero (Nat.lt_of_le_of_lt (Nat.zero_le _) r.out_lt)).symm⟩

def mbStep (prio : ι → Nat) (flag : IpcFlag) (s : MbSt ι n) : MbAct ι → Option (MbSt ι n)
  | .call i call timeout =>
    match s.pc i with
    | .idle _ => some { s with pc := Function.update s.pc i (.test call timeout) }
    | _ => none
  | .go i =>
    match s.pc i with
    | .test call timeout => some (s.attempt prio flag i call timeout)
    | .woken call timeout start =>
      some (s.attempt prio flag i call (mbRemaining timeout start s.tick))
    | _ => none
  | .expire i =>
    match s.pc i with
    | .asleep call timeout _ =>
      if timeout > 0 then
        some { s with
          room := Function.update s.room call.half ((s.room call.half).leave i)
          pc := Function.update s.pc i (.idle (-rtEtimeout)) }
      else none
    | _ => none
  | .tick => some { s with tick := s.tick + 1 }
  | .reset =>
    some { s with
      ring := ringReset s.ring
      room := fun half => { s.room half with asleep := [] }
      pc := fun i => (s.pc i).reset
      out := s.out ++ s.ring.contents.map fun v => (none, v) }

/-- an empty mailbox; nobody is in a call -/
def mbInit (n : Nat) (h : 0 < n) : MbSt ι n :=
  ⟨(rtMbInit n h : Mailbox Unit n).ring, fun _ => ⟨[], []⟩, 0, fun _ => .idle rtEok, [], []⟩

/-! ## the invariant -/

/-- what a half waits for: places, or mails -/
def avail (r : RingBuffer Mail n) : Half → Nat
  | .senders => n - r.entry
  | .receivers => r.entry

/-- both lists are kept in order, with `a` items for each half -/
def Waits (room : Half → WaitRoom ι) (a : Half → Nat) (pc : ι → MbPc) : Prop :=
  ∀ half, WaitsFor (room half) (a half) fun i => (pc i).pos half

structure MbInv (prio : ι → Nat) (flag : IpcFlag) (s : MbSt ι n) : Prop where
  waits : Waits s.room (avail s.ring) s.pc
  flow : s.accepted = s.out.map Prod.snd ++ s.ring.contents
  urgent : flag = .prio → ∀ half, Urgent prio (s.room half).asleep

theorem mbInv_init (prio : ι → Nat) (flag : IpcFlag) (h : 0 < n) :
    MbInv prio flag (mbInit n h : MbSt ι n) :=
  ⟨fun _ => waits_empty, ((RingBuffer.contents_eq_nil _).mpr rfl).symm, fun _ _ => List.Pairwise.nil⟩

variable {room : Half → WaitRoom ι} {a : Half → Nat} {pc : ι → MbPc}

theorem pos_update_pc (pc : ι → MbPc) (i : ι) (x : MbPc) (half : Half) :
    (fun j => (Function.update pc i x j).pos half) =
      Function.update (fun j => (pc j).pos half) i (x.pos half) := by
  funext j
  by_cases hj : j = i
  · rw [hj, Function.update_self, Function.update_self]
  · rw [Function.update_of_ne hj, Function.update_of_ne hj]

/-- a thread moves, and its half does not notice -/
theorem pos_update_same {i : ι} {x : MbPc} {half : Half} (h : x.pos half = (pc i).pos half) :
    (fun j => (Function.update pc i x j).pos half) = fun j => (pc j).pos half := by
  rw [pos_update_pc, h, Function.update_eq_self_iff]

theorem pos_asleep {x : MbPc} {half : Half} :
    x.pos half = .asleep ↔ ∃ call timeout start, x = .asleep call timeout start ∧ call.half = half := by
  cases x with
  | asleep call timeout start =>
    unfold MbPc.pos
    dsimp only
    constructor
    · intro h
      split at h
      next hh => exact ⟨call, timeout, start, rfl, hh⟩
      next => cases h
    · rintro ⟨_, _, _, h, hh⟩
      cases h
      exact if_pos hh
  | woken call timeout start =>
    unfold MbPc.pos
    dsimp only
    constructor
    · intro h
      split at h <;> cases h
    · rintro ⟨_, _, _, h, -⟩
      cases h
  | _ => exact ⟨fun h => (by cases h), fun ⟨_, _, _, h, _⟩ => (by cases h)⟩

/-- the first sleeper of a half is resumed, as one more item is there -/
theorem waits_resume {s : MbSt ι n} (half : Half) (h : Waits s.room a s.pc) :
    Waits (s.resume half).room (Function.update a half (a half + 1)) (s.resume half).pc := by
  unfold MbSt.resume
  cases hl : (s.room half).asleep with
  | nil =>
    intro half'
    by_cases hh : half' = half
    · subst hh
      exact (h half').post_nil hl _
    · rw [Function.update_of_ne hh]
      exact h half'
  | cons j l =>
    dsimp only
    have hj : (s.pc j).pos half = .asleep := ((h half).asleep j).mp (hl ▸ List.mem_cons_self)
    obtain ⟨call, timeout, start, hpc, hcall⟩ := pos_asleep.mp hj
    intro half'
    by_cases hh : half' = half
    · subst hh
      rw [Function.update_self, Function.update_self, pos_update_pc, hpc]
      have hw : (MbPc.asleep call timeout start).resume.pos half' = .woken := if_pos hcall
      rw [hw]
      exact (h half').post hl
    · rw [Function.update_of_ne hh, Function.update_of_ne hh, pos_update_same]
      · exact h half'
      · rw [hpc]
        unfold MbPc.resume MbPc.pos
        dsimp only
        rw [if_neg fun e => hh (e.symm.trans hcall), if_neg fun e => hh (e.symm.trans hcall)]

/-- a thread that does not sleep is done with its half -/
theorem waits_ret {s : MbSt ι n} {i : ι} {half : Half} (ret : RtErr) (h : Waits s.room a s.pc)
    (hi : (s.pc i).pos half ≠ .asleep) (hout : ∀ half', half' ≠ half → (s.pc i).pos half' = .out) :
    Waits (s.ret i half ret).room (Function.update a half (a half - 1)) (s.ret i half ret).pc := by
  unfold MbSt.ret
  dsimp only
  intro half'
  by_cases hh : half' = half
  · subst hh
    rw [Function.update_self, Function.update_self, pos_update_pc]
    exact (h half').look hi
  · rw [Function.update_of_ne hh, Function.update_of_ne hh, pos_update_same]
    · exact h half'
    · exact (hout half' hh).symm

theorem waits_suspend {prio : ι → Nat} {flag : IpcFlag} {s : MbSt ι n} {i : ι} {call : MbCall}
    {timeout : Int} (h : Waits s.room a s.pc) (h0 : a call.half = 0)
    (hi : (s.pc i).pos call.half ≠ .asleep)
    (hout : ∀ half', half' ≠ call.half → (s.pc i).pos half' = .out) :
    Waits (s.suspend prio flag i call timeout).room a (s.suspend prio flag i call timeout).pc := by
  unfold MbSt.suspend
  dsimp only
  intro half'
  by_cases hh : half' = call.half
  · subst hh
    have hlook := (h call.half).look hi
    have hpos : (MbPc.asleep call timeout s.tick).pos call.half = .asleep := if_pos rfl
    rw [h0] at hlook ⊢
    rw [Function.update_self, pos_update_pc, hpos]
    have hs := hlook.sleep (i := i) (Function.update_self ..) (suspend_perm prio flag _ i)
    rw [Function.update_idem] at hs
    exact hs
  · rw [Function.update_of_ne hh, pos_update_same]
    · exact h half'
    · rw [hout half' hh]
      exact if_neg (Ne.symm hh)

theorem avail_push (r : RingBuffer Mail n) (h : r.entry < n) (v : Mail) :
    avail (r.push h v) = Function.update (Function.update (avail r) .senders (avail r .senders - 1))
      .receivers (avail r .receivers + 1) := by
  funext half
  cases half with
  | senders =>
    rw [Function.update_of_ne (by decide), Function.update_self]
    exact (Nat.sub_sub n r.entry 1).symm
  | receivers =>
    rw [Function.update_self]
    rfl

theorem avail_pop (r : RingBuffer Mail n) (h : 0 < r.entry) :
    avail (r.pop h) = Function.update (Function.update (avail r) .receivers (avail r .receivers - 1))
      .senders (avail r .senders + 1) := by
  funext half
  have := r.entry_le
  cases half with
  | senders =>
    rw [Function.update_self]
    show n - (r.entry - 1) = n - r.entry + 1
    omega
  | receivers =>
    rw [Function.update_of_ne (by decide), Function.update_self]
    rfl

/-- who is in front of the loop, or resumed, sleeps nowhere -/
def MbPc.InCall (call : MbCall) (x : MbPc) : Prop :=
  x.pos call.half ≠ .asleep ∧ ∀ half, half ≠ call.half → x.pos half = .out

theorem inCall_test (call : MbCall) (timeout : Int) : (MbPc.test call timeout).InCall call :=
  ⟨fun h => (by cases h), fun _ _ => rfl⟩

theorem inCall_woken (call : MbCall) (timeout : Int) (start : BitVec 32) :
    (MbPc.woken call timeout start).InCall call := by
  have hpos : (MbPc.woken call timeout start).pos call.half = .woken := if_pos rfl
  refine ⟨fun h => ?_, fun half hh => if_neg (Ne.symm hh)⟩
  rw [hpos] at h
  cases h

variable {prio : ι → Nat} {flag : IpcFlag} {s : MbSt ι n}

theorem resume_rest (s : MbSt ι n) (half : Half) :
    (s.resume half).ring = s.ring ∧ (s.resume half).accepted = s.accepted ∧
      (s.resume half).out = s.out := by
  unfold MbSt.resume
  split <;> exact ⟨rfl, rfl, rfl⟩

theorem waits_attempt {i : ι} {call : MbCall} (timeout : Int)
    (h : Waits s.room (avail s.ring) s.pc) (hi : (s.pc i).InCall call) :
    Waits (s.attempt prio flag i call timeout).room (avail (s.attempt prio flag i call timeout).ring)
      (s.attempt prio flag i call timeout).pc := by
  -- nothing there: return, or sleep
  have hblock : avail s.ring call.half = 0 →
      ∀ t, t = (if timeout = 0 then s.ret i call.half call.refusal
        else s.suspend prio flag i call timeout) → Waits t.room (avail t.ring) t.pc := by
    rintro h0 t rfl
    split
    · have hr := waits_ret call.refusal h hi.1 hi.2
      have e : avail s.ring call.half - 1 = avail s.ring call.half := by omega
      rw [e, Function.update_eq_self] at hr
      exact hr
    · exact waits_suspend h h0 hi.1 hi.2
  cases call with
  | send v =>
    unfold MbSt.attempt
    dsimp only
    split
    next hlt =>
      have hr := waits_resume .receivers (s := { s.ret i .senders rtEok with
        ring := s.ring.push hlt v, accepted := s.accepted ++ [v] }) (waits_ret rtEok h hi.1 hi.2)
      rw [(resume_rest _ _).1, avail_push]
      exact hr
    next hge => exact hblock (Nat.sub_eq_zero_of_le (Nat.not_lt.mp hge)) _ rfl
  | recv =>
    unfold MbSt.attempt
    dsimp only
    split
    next hlt =>
      have hr := waits_resume .senders (s := { s.ret i .receivers rtEok with
        ring := s.ring.pop hlt, out := s.out ++ [(some i, s.ring.head)] })
        (waits_ret rtEok h hi.1 hi.2)
      rw [(resume_rest _ _).1, avail_pop]
      exact hr
    next hge => exact hblock (Nat.eq_zero_of_not_pos hge) _ rfl

theorem flow_attempt {i : ι} (call : MbCall) (timeout : Int)
    (h : s.accepted = s.out.map Prod.snd ++ s.ring.contents) :
    (s.attempt prio flag i call timeout).accepted =
      (s.attempt prio flag i call timeout).out.map Prod.snd ++
        (s.attempt prio flag i call timeout).ring.contents := by
  have hblock : ∀ t, t = (if timeout = 0 then s.ret i call.half call.refusal
      else s.suspend prio flag i call timeout) →
      t.accepted = t.out.map Prod.snd ++ t.ring.contents := by
    rintro t rfl
    split <;> exact h
  unfold MbSt.attempt
  cases call with
  | send v =>
    dsimp only
    split
    next hlt =>
      obtain ⟨hring, hacc, hout⟩ := resume_rest ({ s.ret i .senders rtEok with
        ring := s.ring.push hlt v, accepted := s.accepted ++ [v] } : MbSt ι n) .receivers
      rw [hring, hacc, hout]
      show s.accepted ++ [v] = s.out.map Prod.snd ++ (s.ring.push hlt v).contents
      rw [h, RingBuffer.contents_push, List.append_assoc]
    next => exact hblock _ rfl
  | recv =>
    dsimp only
    split
    next hlt =>
      obtain ⟨hring, hacc, hout⟩ := resume_rest ({ s.ret i .receivers rtEok with
        ring := s.ring.pop hlt, out := s.out ++ [(some i, s.ring.head)] } : MbSt ι n) .senders
      rw [hring, hacc, hout]
      show s.accepted = (s.out ++ [(some i, s.ring.head)]).map Prod.snd ++ (s.ring.pop hlt).contents
      rw [h, RingBuffer.contents_pop s.ring hlt, List.map_append, List.append_assoc]
      rfl
    next => exact hblock _ rfl

theorem urgent_update {room : Half → WaitRoom ι} {half : Half} {r : WaitRoom ι}
    (h : ∀ half, Urgent prio (room half).asleep) (hr : Urgent prio r.asleep) (half' : Half) :
    Urgent prio (Function.update room half r half').asleep := by
  by_cases hh : half' = half
  · rw [hh, Function.update_self]
    exact hr
  · rw [Function.update_of_ne hh]
    exact h half'

theorem urgent_resume {s : MbSt ι n} (half : Half) (h : ∀ half, Urgent prio (s.room half).asleep) :
    ∀ half', Urgent prio ((s.resume half).room half').asleep := by
  unfold MbSt.resume
  cases hl : (s.room half).asleep with
  | nil => exact h
  | cons j l =>
    refine urgent_update h ?_
    have hj := h half
    unfold WaitRoom.wake
    rw [hl] at hj ⊢
    exact (List.pairwise_cons.mp hj).2

theorem urgent_attempt {i : ι} (call : MbCall) (timeout : Int) (hflag : flag = .prio)
    (h : ∀ half, Urgent prio (s.room half).asleep) :
    ∀ half, Urgent prio ((s.attempt prio flag i call timeout).room half).asleep := by
  have hblock : ∀ t, t = (if timeout = 0 then s.ret i call.half call.refusal
      else s.suspend prio flag i call timeout) → ∀ half, Urgent prio (t.room half).asleep := by
    rintro t rfl
    split
    · exact urgent_update h (h call.half)
    · subst hflag
      exact urgent_update h (insertPrio_urgent prio (h call.half) i)
  unfold MbSt.attempt
  cases call with
  | send v =>
    dsimp only
    split
    · exact urgent_resume .receivers (urgent_update h (h .senders))
    · exact hblock _ rfl
  | recv =>
    dsimp only
    split
    · exact urgent_resume .senders (urgent_update h (h .receivers))
    · exact hblock _ rfl

theorem mbInv_attempt {i : ι} {call : MbCall} (timeout : Int) (h : MbInv prio flag s)
    (hi : (s.pc i).InCall call) : MbInv prio flag (s.attempt prio flag i call timeout) :=
  ⟨waits_attempt timeout h.waits hi, flow_attempt call timeout h.flow,
    fun hflag => urgent_attempt call timeout hflag (h.urgent hflag)⟩

/-- **Each step keeps the lists in order and the mails in a queue.** -/
theorem mbInv_step (s : MbSt ι n) (a : MbAct ι) (t : MbSt ι n) (h : MbInv prio flag s)
    (ht : mbStep prio flag s a = some t) : MbInv prio flag t := by
  cases a with
  | call i call timeout =>
    unfold mbStep at ht
    dsimp only at ht
    cases hpc : s.pc i with
    | idle r =>
      rw [hpc] at ht
      cases ht
      refine ⟨fun half => ?_, h.flow, h.urgent⟩
      dsimp only
      rw [pos_update_same (by rw [hpc]; rfl)]
      exact h.waits half
    | _ =>
      rw [hpc] at ht
      cases ht
  | go i =>
    unfold mbStep at ht
    dsimp only at ht
    cases hpc : s.pc i with
    | test call timeout =>
      rw [hpc] at ht
      cases ht
      exact mbInv_attempt _ h (hpc ▸ inCall_test call timeout)
    | woken call timeout start =>
      rw [hpc] at ht
      cases ht
      exact mbInv_attempt _ h (hpc ▸ inCall_woken call timeout start)
    | _ =>
      rw [hpc] at ht
      cases ht
  | expire i =>
    unfold mbStep at ht
    dsimp only at ht
    cases hpc : s.pc i with
    | asleep call timeout start =>
      rw [hpc] at ht
      dsimp only at ht
      split at ht
      next =>
        cases ht
        have hpos : (s.pc i).pos call.half = .asleep := by
          rw [hpc]
          exact if_pos rfl
        refine ⟨fun half => ?_, h.flow, fun hflag => ?_⟩
        · dsimp only
          by_cases hh : half = call.half
          · subst hh
            rw [Function.update_self, pos_update_pc]
            exact (h.waits call.half).leave hpos
          · rw [Function.update_of_ne hh, pos_update_same]
            · exact h.waits half
            · rw [hpc]
              exact (if_neg (Ne.symm hh)).symm
        · exact urgent_update (h.urgent hflag)
            ((h.urgent hflag call.half).sublist List.erase_sublist)
      next => cases ht
    | _ =>
      rw [hpc] at ht
      cases ht
  | tick =>
    cases ht
    exact ⟨h.waits, h.flow, h.urgent⟩
  | reset =>
    cases ht
    refine ⟨fun half => ?_, ?_, fun _ _ => List.Pairwise.nil⟩
    · have hpos : (fun i => (s.pc i).reset.pos half) =
          fun i => if (s.pc i).pos half = .asleep then .out else (s.pc i).pos half := by
        funext i
        cases hpc : s.pc i with
        | asleep call timeout start =>
          unfold MbPc.reset MbPc.pos
          dsimp only
          split <;> rfl
        | woken call timeout start =>
          unfold MbPc.reset MbPc.pos
          dsimp only
          split <;> rfl
        | _ => rfl
      dsimp only
      rw [hpos]
      exact (h.waits half).clear _
    · have hempty : (ringReset s.ring).contents = [] := (RingBuffer.contents_eq_nil _).mpr rfl
      dsimp only
      rw [hempty, List.append_nil, List.map_append, List.map_map, h.flow]
      exact congrArg _ (List.map_id _).symm

/-! ## runs -/

theorem mbInv_run (h : 0 < n) (as : List (MbAct ι)) (t : MbSt ι n)
    (hr : run (mbStep prio flag) (mbInit n h) as = some t) : MbInv prio flag t :=
  run_inv (I := MbInv prio flag) (G := fun _ _ _ => True)
    (fun s a u hs hu _ => mbInv_step s a u hs hu) as _ t (mbInv_init prio flag h)
    (along_of_forall (fun _ _ _ => trivial) _ as) hr

/-- **Every mail is received once, in the order of the sends**, or thrown away by a reset. -/
theorem mb_fifo (h : 0 < n) (as : List (MbAct ι)) (t : MbSt ι n)
    (hr : run (mbStep prio flag) (mbInit n h) as = some t) :
    t.accepted = t.out.map Prod.snd ++ t.ring.contents :=
  (mbInv_run h as t hr).flow

/-- **No wake-up is lost.**  A sleeping receiver (sender) never faces a mail (a place) unless a
resumed one is on its way; a sender and a receiver never sleep at the same time with nobody on the
way; and the list of a `RT_IPC_FLAG_PRIO` object starts with its most urgent sleeper. -/
theorem mb_awake (h : 0 < n) (as : List (MbAct ι)) (t : MbSt ι n)
    (hr : run (mbStep prio flag) (mbInit n h) as = some t) :
    (∀ half i, (t.pc i).pos half = .asleep → 0 < avail t.ring half →
        ∃ j, (t.pc j).pos half = .woken) ∧
      (∀ i j, (t.pc i).pos .senders = .asleep → (t.pc j).pos .receivers = .asleep →
        ∃ half k, (t.pc k).pos half = .woken) ∧
      (flag = .prio → ∀ half j l, (t.room half).asleep = j :: l →
        ∀ i, (t.pc i).pos half = .asleep → prio j ≤ prio i) := by
  have hi := mbInv_run h as t hr
  have hawake : ∀ half i, (t.pc i).pos half = .asleep → 0 < avail t.ring half →
      ∃ j, (t.pc j).pos half = .woken := fun half i h1 h2 => (hi.waits half).exists_woken h1 h2
  refine ⟨hawake, fun i j hs hq => ?_, fun hflag half j l hl i hsleep => ?_⟩
  · rcases Nat.eq_zero_or_pos t.ring.entry with h0 | hpos
    · have hroom : 0 < avail t.ring .senders := by
        show 0 < n - t.ring.entry
        omega
      exact ⟨_, hawake .senders i hs hroom⟩
    · exact ⟨_, hawake .receivers j hq hpos⟩
  · have hmem : i ∈ (t.room half).asleep := ((hi.waits half).asleep i).mpr hsleep
    have hu := hi.urgent hflag half
    rw [hl] at hmem hu
    rcases List.mem_cons.mp hmem with rfl | hmem'
    · exact Nat.le_refl _
    · exact (List.pairwise_cons.mp hu).1 i hmem'

end

/-- one place: the second sender sleeps until the receiver has been there -/
def twoSends : List (MbAct Nat) :=
  [.call 0 (.send 7) 0, .go 0, .call 1 (.send 8) (-1), .go 1, .call 2 .recv 100, .go 2, .go 1]

theorem mb_fifo_ok : ∃ t : MbSt Nat 1, run (mbStep id .fifo) (mbInit 1 Nat.one_pos) twoSends = some t ∧
    t.accepted = [7, 8] ∧ t.accepted = t.out.map Prod.snd ++ t.ring.contents :=
  ⟨_, rfl, rfl, @mb_fifo Nat _ 1 id .fifo Nat.one_pos twoSends _ rfl⟩

/-- one of two sleeping receivers is resumed, and has not run yet -/
def twoReceivers : List (MbAct Nat) :=
  [.call 0 .recv (-1), .go 0, .call 1 .recv (-1), .go 1, .call 2 (.send 7) 0, .go 2]

theorem mb_awake_ok : ∃ t : MbSt Nat 1,
    run (mbStep id .prio) (mbInit 1 Nat.one_pos) twoReceivers = some t ∧
      ∃ j, (t.pc j).pos .receivers = .woken :=
  ⟨_, rfl, (@mb_awake Nat _ 1 id .prio Nat.one_pos twoReceivers _ rfl).1 .receivers 1
    (by decide) (by decide)⟩

end ENV

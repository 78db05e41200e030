import Enviroment.Kernel.Types
import Enviroment.Lib.RingBuffer

/-!
# Semaphores and mailboxes of the kernel (`ipc.c`)

Each kernel call runs with interrupts disabled, so it is one function of the object.  Suspending
the caller and resuming another thread are part of the result: the scheduler side is in
`Enviroment.Threads.System`.

* `rtSemTake`, `rtSemTrytake`, `rtSemRelease`   a release hands the token to the first suspended
                                                thread, or counts it in 16 bits;
* `rtMbSend`, `rtMbRecv`                        the non-blocking send and the receive;
* `send_full`, `send_room`, `recv_nil`, `recv_cons`   a mailbox is a bounded queue;
* `rtIpcListSuspend`                            where a thread goes in the list of an object.
-/

namespace ENV

variable {τ : Type}

/-! ## semaphores -/

/-- `struct rt_semaphore`: the value and the threads suspended on it, first come first -/
structure Semaphore (τ : Type) where
  value : BitVec 16
  suspended : List τ

/-- `rt_sem_create(name, value, RT_IPC_FLAG_FIFO)` -/
def rtSemCreate (value : BitVec 16) : Semaphore τ := ⟨value, []⟩

/-- `rt_sem_take(sem, RT_WAITING_FOREVER)` by `self`: taken, or suspended -/
def rtSemTake (sem : Semaphore τ) (self : τ) : Bool × Semaphore τ :=
  if 0 < sem.value then (true, { sem with value := sem.value - 1 })
  else (false, { sem with suspended := sem.suspended ++ [self] })

/-- `rt_sem_trytake(sem)` -/
def rtSemTrytake (sem : Semaphore τ) : RtErr × Semaphore τ :=
  if 0 < sem.value then (rtEok, { sem with value := sem.value - 1 }) else (-rtEtimeout, sem)

/-- `rt_sem_release(sem)`: the thread it resumes, if any -/
def rtSemRelease (sem : Semaphore τ) : Option τ × Semaphore τ :=
  match sem.suspended with
  | t :: ts => (some t, { sem with suspended := ts })
  | [] => (none, { sem with value := sem.value + 1 })

/-- `rt_sem_control(sem, RT_IPC_CMD_RESET, value)`: the threads that it resumes, with an error -/
def rtSemReset (sem : Semaphore τ) (value : BitVec 16) : List τ × Semaphore τ :=
  (sem.suspended, ⟨value, []⟩)

theorem semTake_zero (l : List τ) (self : τ) :
    rtSemTake ⟨0, l⟩ self = (false, ⟨0, l ++ [self]⟩) := by
  exact if_neg (show ¬ (0 : BitVec 16) < 0 by decide)

theorem semTake_one (l : List τ) (self : τ) : rtSemTake ⟨1, l⟩ self = (true, ⟨0, l⟩) := by
  have e : rtSemTake ⟨1, l⟩ self = (true, ⟨1 - 1, l⟩) := if_pos (show (0 : BitVec 16) < 1 by decide)
  rw [e, show (1 : BitVec 16) - 1 = 0 by decide]

/-! ## mailboxes -/

/-- `struct rt_mailbox` with a pool of `n` mails and the receivers suspended on it -/
structure Mailbox (τ : Type) (n : Nat) where
  ring : RingBuffer Mail n
  suspended : List τ

variable {n : Nat}

/-- the queue of mails -/
def Mailbox.mails (mb : Mailbox τ n) : List Mail := mb.ring.contents

/-- `rt_mb_init` on a zeroed pool -/
def rtMbInit (n : Nat) (h : 0 < n) : Mailbox τ n :=
  ⟨⟨fun _ => 0, 0, 0, 0, Nat.zero_le n, h, (slot_zero h).symm⟩, []⟩

/-- `rt_mb_send(mb, value)`: result, resumed receiver, mailbox -/
def rtMbSend (mb : Mailbox τ n) (value : Mail) : RtErr × Option τ × Mailbox τ n :=
  if h : mb.ring.entry < n then
    let ring := mb.ring.push h value
    match mb.suspended with
    | t :: ts => (rtEok, some t, ⟨ring, ts⟩)
    | [] => (rtEok, none, ⟨ring, []⟩)
  else (-rtEfull, none, mb)

/-- `rt_mb_recv(mb, &value, timeout)` by `self`: a mail, or `self` is suspended -/
def rtMbRecv (mb : Mailbox τ n) (self : τ) : Option Mail × Mailbox τ n :=
  if h : 0 < mb.ring.entry then (some mb.ring.head, { mb with ring := mb.ring.pop h })
  else (none, { mb with suspended := mb.suspended ++ [self] })

/-- the mailbox rejects the next send -/
def Mailbox.full (mb : Mailbox τ n) : Prop := mb.mails.length = n

instance (mb : Mailbox τ n) : Decidable mb.full := inferInstanceAs (Decidable (_ = _))

theorem mails_init (h : 0 < n) : (rtMbInit n h : Mailbox τ n).mails = [] :=
  (RingBuffer.contents_eq_nil _).mpr rfl

theorem length_mails (mb : Mailbox τ n) : mb.mails.length = mb.ring.entry :=
  mb.ring.length_contents

theorem length_mails_le (mb : Mailbox τ n) : mb.mails.length ≤ n := by
  rw [length_mails]
  exact mb.ring.entry_le

theorem send_full (mb : Mailbox τ n) (v : Mail) (h : mb.full) :
    rtMbSend mb v = (-rtEfull, none, mb) := by
  unfold Mailbox.full at h
  rw [length_mails] at h
  exact dif_neg (by omega)

theorem send_room (mb : Mailbox τ n) (v : Mail) (h : ¬ mb.full) :
    (rtMbSend mb v).1 = rtEok ∧ (rtMbSend mb v).2.1 = mb.suspended.head? ∧
      (rtMbSend mb v).2.2.mails = mb.mails ++ [v] ∧
      (rtMbSend mb v).2.2.suspended = mb.suspended.tail := by
  have hlt : mb.ring.entry < n := by
    have := length_mails_le mb
    unfold Mailbox.full at h
    rw [length_mails] at h this
    omega
  unfold rtMbSend
  rw [dif_pos hlt]
  have hc := mb.ring.contents_push hlt v
  cases hs : mb.suspended with
  | nil => exact ⟨rfl, rfl, hc, rfl⟩
  | cons t ts => exact ⟨rfl, rfl, hc, rfl⟩

theorem recv_nil (mb : Mailbox τ n) (self : τ) (h : mb.mails = []) :
    rtMbRecv mb self = (none, { mb with suspended := mb.suspended ++ [self] }) := by
  have h0 := (RingBuffer.contents_eq_nil _).mp h
  exact dif_neg (by omega)

theorem recv_cons (mb : Mailbox τ n) (self : τ) {v : Mail} {l : List Mail} (h : mb.mails = v :: l) :
    (rtMbRecv mb self).1 = some v ∧ (rtMbRecv mb self).2.mails = l ∧
      (rtMbRecv mb self).2.suspended = mb.suspended := by
  have hpos : 0 < mb.ring.entry := by
    have := length_mails mb
    rw [h, List.length_cons] at this
    omega
  have hc := mb.ring.contents_pop hpos
  have e : v :: l = mb.ring.head :: (mb.ring.pop hpos).contents := h.symm.trans hc
  obtain ⟨hv, hl⟩ := List.cons.inj e
  unfold rtMbRecv
  rw [dif_pos hpos]
  exact ⟨by rw [hv], hl.symm, rfl⟩

/-! ## suspending -/

/-- the flag of the object -/
inductive IpcFlag where
  | fifo
  | prio
deriving DecidableEq

section
variable {ι : Type*} (prio : ι → Nat)

/-- before the first one that is less urgent; a lower number is more urgent -/
def insertPrio (i : ι) : List ι → List ι
  | [] => [i]
  | j :: l => if prio i < prio j then i :: j :: l else j :: insertPrio i l

/-- `rt_ipc_list_suspend(list, thread, flag)` -/
def rtIpcListSuspend (flag : IpcFlag) (list : List ι) (i : ι) : List ι :=
  match flag with
  | .fifo => list ++ [i]
  | .prio => insertPrio prio i list

theorem insertPrio_perm (i : ι) (l : List ι) : (insertPrio prio i l).Perm (i :: l) := by
  induction l with
  | nil => exact List.Perm.refl _
  | cons j l ih =>
    unfold insertPrio
    split
    · exact List.Perm.refl _
    · exact (ih.cons j).trans (List.Perm.swap i j l)

theorem suspend_perm (flag : IpcFlag) (l : List ι) (i : ι) :
    (rtIpcListSuspend prio flag l i).Perm (i :: l) := by
  cases flag with
  | fifo => exact List.perm_append_singleton i l
  | prio => exact insertPrio_perm prio i l

/-- the most urgent one first -/
def Urgent (l : List ι) : Prop := l.Pairwise fun i j => prio i ≤ prio j

theorem insertPrio_urgent {l : List ι} (h : Urgent prio l) (i : ι) :
    Urgent prio (insertPrio prio i l) := by
  induction l with
  | nil => exact List.pairwise_singleton _ i
  | cons j l ih =>
    obtain ⟨hj, hl⟩ := List.pairwise_cons.mp h
    unfold insertPrio
    split
    next hlt =>
      refine List.pairwise_cons.mpr ⟨fun k hk => ?_, h⟩
      rcases List.mem_cons.mp hk with rfl | hk'
      · exact Nat.le_of_lt hlt
      · exact Nat.le_trans (Nat.le_of_lt hlt) (hj k hk')
    next hge =>
      refine List.pairwise_cons.mpr ⟨fun k hk => ?_, ih hl⟩
      rcases List.mem_cons.mp ((insertPrio_perm prio i l).mem_iff.mp hk) with rfl | hk'
      · exact Nat.not_lt.mp hge
      · exact hj k hk'

end

end ENV

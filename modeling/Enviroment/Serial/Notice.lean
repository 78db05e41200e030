import Enviroment.Kernel.Ipc
import Enviroment.Serial.Fifo
import Mathlib.Algebra.GroupWithZero.Nat

/-!
# Waiting for characters (`at_client_getchar`, `at_client_rx_ind`)

A function of the AT client reads one character after the other: it asks the device, and if there is
none it resets `rx_notice` and takes it.  The interrupt stores its characters and releases
`rx_notice`, at any time.

* `Caller`        what a function does with the characters, and when it has enough of them;
* `Rx`, `rxStep`  the device, the semaphore and the caller's thread;
* `Rx.Missed`     a character waits, and the semaphore does not show it: it came between the empty
                  read and the reset, with no interrupt since, or the count went round;
* `served_iff`    nothing is lost and the thread never sleeps on a character, exactly if no interrupt
                  overruns the buffer and no take comes after a miss.
-/

namespace ENV

variable {α κ : Type*} {n : Nat}

/-- a function that calls `at_client_getchar` -/
structure Caller (α κ : Type*) where
  /-- its locals after one more character -/
  feed : κ → α → κ
  /-- it needs no more -/
  enough : κ → Bool
  /-- it waits for a limited time -/
  timed : κ → Bool
  /-- its locals after a time-out -/
  failed : κ → κ

inductive RxPc where
  /-- before `rt_device_read` -/
  | read
  /-- nothing was read; before `rt_sem_control(client->rx_notice, RT_IPC_CMD_RESET, RT_NULL)` -/
  | reset
  /-- before `rt_sem_take(client->rx_notice, timeout)` -/
  | take
  /-- suspended there -/
  | asleep
  /-- the function has returned -/
  | back
deriving DecidableEq

structure Rx (α κ : Type*) (n : Nat) where
  fifo : RxFifo α n
  notice : Semaphore Unit
  pc : RxPc
  /-- the locals of the caller -/
  locals : κ
  /-- what the device had and got since the call; no code looks at the rest -/
  came : List α
  got : List α
  /-- a character came since the last empty read and before the reset -/
  hit : Bool
  /-- the calls of `at_client_rx_ind` since the last reset -/
  calls : Nat

inductive RxAct (α : Type*) where
  /-- `rt_hw_serial_isr` -/
  | isr (chs : List α)
  | thread
  /-- the timer of the thread -/
  | timeout
deriving DecidableEq

/-- the function asks for the next character, or returns -/
def Caller.next (c : Caller α κ) (locals : κ) : RxPc := if c.enough locals then .back else .read

/-- the device at the call of the function -/
def rxCall (c : Caller α κ) (fifo : RxFifo α n) (value : BitVec 16) (locals : κ) : Rx α κ n :=
  ⟨fifo, ⟨value, []⟩, c.next locals, locals, fifo.contents, [], false, 0⟩

/-- the interrupt, up to `rx_indicate` -/
def Rx.receive (s : Rx α κ n) (chs : List α) : Rx α κ n :=
  { s with
    fifo := s.fifo.storeAll chs
    came := s.came ++ chs
    hit := s.hit || (decide (s.pc = .reset) && !chs.isEmpty) }

/-- `at_client_rx_ind` -/
def Rx.indicate (s : Rx α κ n) : Rx α κ n :=
  match rtSemRelease s.notice with
  | (some _, notice) => { s with notice := notice, calls := s.calls + 1, pc := .read }
  | (none, notice) => { s with notice := notice, calls := s.calls + 1 }

/-- the next kernel call of `at_client_getchar` -/
def rxThread (c : Caller α κ) (s : Rx α κ n) : Option (Rx α κ n) :=
  match s.pc with
  | .read =>
    match s.fifo.take with
    | none => some { s with pc := .reset, hit := false }
    | some (ch, fifo) =>
      let locals := c.feed s.locals ch
      some { s with
        fifo := fifo
        locals := locals
        got := s.got ++ [ch]
        pc := c.next locals }
  | .reset => some { s with notice := (rtSemReset s.notice 0).2, calls := 0, pc := .take }
  | .take =>
    match rtSemTake s.notice () with
    | (true, notice) => some { s with notice := notice, pc := .read }
    | (false, notice) => some { s with notice := notice, pc := .asleep }
  | .asleep => none
  | .back => none

def rxStep (c : Caller α κ) (s : Rx α κ n) : RxAct α → Option (Rx α κ n)
  | .isr chs =>
    let s := s.receive chs
    some (if s.fifo.indicates then s.indicate else s)
  | .thread => rxThread c s
  | .timeout =>
    if c.timed s.locals ∧ s.pc = .asleep then
      let locals := c.failed s.locals
      some { s with notice := ⟨s.notice.value, []⟩, locals := locals, pc := c.next locals }
    else none

/-! ## what the semaphore shows -/

/-- characters wait and the semaphore is at zero: the next take sleeps on them -/
def Rx.Missed (s : Rx α κ n) : Prop := (s.hit = true ∨ 0 < s.calls) ∧ 2 ^ 16 ∣ s.calls

instance (s : Rx α κ n) : Decidable s.Missed := inferInstanceAs (Decidable (_ ∧ _))

structure RxInv (s : Rx α κ n) : Prop where
  suspended : s.notice.suspended = if s.pc = .asleep then [()] else []
  atReset : s.pc = .reset → (s.fifo.contents ≠ [] ↔ s.hit = true)
  atTake : s.pc = .take → s.notice.value = BitVec.ofNat 16 s.calls ∧
    (s.fifo.contents ≠ [] ↔ s.hit = true ∨ 0 < s.calls)

variable {c : Caller α κ}

theorem next_cases (c : Caller α κ) (locals : κ) :
    c.next locals = .back ∨ c.next locals = .read := by
  unfold Caller.next
  split
  · exact Or.inl rfl
  · exact Or.inr rfl

theorem next_ne_asleep (c : Caller α κ) (locals : κ) : c.next locals ≠ .asleep := by
  rcases next_cases c locals with h | h <;> rw [h] <;> exact RxPc.noConfusion

/-- between two calls of `at_client_getchar` the semaphore means nothing -/
theorem rxInv_next {s : Rx α κ n} (hn : s.notice.suspended = [])
    (hp : s.pc = .back ∨ s.pc = .read) : RxInv s := by
  rcases hp with hp | hp
  · exact ⟨by rw [hn, hp]; rfl, fun e => RxPc.noConfusion (hp.symm.trans e),
      fun e => RxPc.noConfusion (hp.symm.trans e)⟩
  · exact ⟨by rw [hn, hp]; rfl, fun e => RxPc.noConfusion (hp.symm.trans e),
      fun e => RxPc.noConfusion (hp.symm.trans e)⟩

theorem rxInv_call (fifo : RxFifo α n) (value : BitVec 16) (locals : κ) :
    RxInv (rxCall c fifo value locals) :=
  rxInv_next rfl (next_cases c locals)

/-! ## what a step does -/

/-- what an interrupt stores is seen by a sleeping thread, or counted -/
theorem rx_isr {s t : Rx α κ n} {chs : List α} (hs : RxInv s)
    (h : rxStep c s (.isr chs) = some t) :
    t.fifo = s.fifo.storeAll chs ∧ t.came = s.came ++ chs ∧ t.got = s.got ∧ t.locals = s.locals ∧
      t.hit = (s.hit || (decide (s.pc = .reset) && !chs.isEmpty)) ∧
      ((t.fifo.contents = [] ∧ t.pc = s.pc ∧ t.notice = s.notice ∧ t.calls = s.calls) ∨
        (t.fifo.contents ≠ [] ∧ s.pc = .asleep ∧ t.pc = .read ∧ t.notice = ⟨s.notice.value, []⟩) ∨
        (t.fifo.contents ≠ [] ∧ s.pc ≠ .asleep ∧ t.pc = s.pc ∧
          t.notice = ⟨s.notice.value + 1, []⟩ ∧ t.calls = s.calls + 1)) := by
  have hsus := hs.suspended
  have ht : t = if (s.receive chs).fifo.indicates then (s.receive chs).indicate
      else s.receive chs := (Option.some.inj h).symm
  cases hi : (s.receive chs).fifo.indicates with
  | false =>
    rw [hi, if_neg Bool.false_ne_true] at ht
    have hnil : (s.receive chs).fifo.contents = [] := by
      by_contra hne
      rw [(RxFifo.indicates_iff _).mpr hne] at hi
      cases hi
    rw [ht]
    exact ⟨rfl, rfl, rfl, rfl, rfl, Or.inl ⟨hnil, rfl, rfl, rfl⟩⟩
  | true =>
    rw [hi, if_pos rfl] at ht
    have hne := (RxFifo.indicates_iff _).mp hi
    have hsame : (s.receive chs).notice = ⟨s.notice.value, s.notice.suspended⟩ := rfl
    by_cases hp : s.pc = .asleep
    · rw [if_pos hp] at hsus
      rw [Rx.indicate, hsame, hsus] at ht
      rw [ht]
      exact ⟨rfl, rfl, rfl, rfl, rfl, Or.inr (Or.inl ⟨hne, hp, rfl, rfl⟩)⟩
    · rw [if_neg hp] at hsus
      rw [Rx.indicate, hsame, hsus] at ht
      rw [ht]
      exact ⟨rfl, rfl, rfl, rfl, rfl, Or.inr (Or.inr ⟨hne, hp, rfl, rfl, rfl⟩)⟩

/-- the five ways of a kernel call -/
theorem rx_thread {s t : Rx α κ n} (h : rxThread c s = some t) :
    (s.pc = .read ∧ s.fifo.contents = [] ∧ t = { s with pc := .reset, hit := false }) ∨
      (s.pc = .read ∧ ∃ ch, s.fifo.contents = ch :: t.fifo.contents ∧ t.got = s.got ++ [ch] ∧
        t.came = s.came ∧ t.locals = c.feed s.locals ch ∧ t.notice = s.notice ∧
        t.pc = c.next t.locals) ∨
      (s.pc = .reset ∧ t = { s with notice := ⟨0, []⟩, calls := 0, pc := .take }) ∨
      (s.pc = .take ∧ 0 < s.notice.value ∧
        t = { s with notice := ⟨s.notice.value - 1, s.notice.suspended⟩, pc := .read }) ∨
      (s.pc = .take ∧ s.notice.value = 0 ∧
        t = { s with notice := ⟨0, s.notice.suspended ++ [()]⟩, pc := .asleep }) := by
  unfold rxThread at h
  cases hp : s.pc with
  | read =>
    rw [hp] at h
    cases hf : s.fifo.take with
    | none =>
      rw [hf] at h
      exact Or.inl ⟨rfl, (RxFifo.take_nil _).mp hf, (Option.some.inj h).symm⟩
    | some p =>
      rw [hf] at h
      cases h
      exact Or.inr (Or.inl ⟨rfl, p.1, RxFifo.take_cons hf, rfl, rfl, rfl, rfl, rfl⟩)
  | reset =>
    rw [hp] at h
    exact Or.inr (Or.inr (Or.inl ⟨rfl, (Option.some.inj h).symm⟩))
  | take =>
    rw [hp] at h
    unfold rtSemTake at h
    by_cases hv : 0 < s.notice.value
    · rw [if_pos hv] at h
      exact Or.inr (Or.inr (Or.inr (Or.inl ⟨rfl, hv, (Option.some.inj h).symm⟩)))
    · have h0 : s.notice.value = 0 := by
        rw [BitVec.lt_def] at hv
        exact BitVec.eq_of_toNat_eq (by simpa using hv)
      rw [if_neg hv, h0] at h
      exact Or.inr (Or.inr (Or.inr (Or.inr ⟨rfl, h0, (Option.some.inj h).symm⟩)))
  | asleep =>
    rw [hp] at h
    cases h
  | back =>
    rw [hp] at h
    cases h

theorem rx_timeout {s t : Rx α κ n} (h : rxStep c s .timeout = some t) :
    s.pc = .asleep ∧ t = { s with
      notice := ⟨s.notice.value, []⟩
      locals := c.failed s.locals
      pc := c.next (c.failed s.locals) } := by
  rw [rxStep] at h
  split at h
  next hc => exact ⟨hc.2, (Option.some.inj h).symm⟩
  next => cases h

theorem rxInv_isr {s t : Rx α κ n} {chs : List α} (hs : RxInv s)
    (h : rxStep c s (.isr chs) = some t) : RxInv t := by
  obtain ⟨hf, -, -, -, hhit, hcases⟩ := rx_isr hs h
  have hsus := hs.suspended
  have hne : t.fifo.contents ≠ [] ↔ s.fifo.contents ≠ [] ∨ chs ≠ [] := by
    rw [hf, Ne, RxFifo.storeAll_eq_nil, not_and_or]
  rcases hcases with ⟨hnil, hp, hn, hc⟩ | ⟨-, hp, hp', hn⟩ | ⟨hsome, hp, hp', hn, hc⟩
  · -- nothing waited and nothing came
    have hnone := mt hne.mpr (not_not_intro hnil)
    have hchs : chs = [] := by
      by_contra hx
      exact hnone (Or.inr hx)
    have hsame : t.hit = s.hit := by
      rw [hhit, hchs, List.isEmpty_nil, Bool.not_true, Bool.and_false, Bool.or_false]
    have hiff : t.fifo.contents ≠ [] ↔ s.fifo.contents ≠ [] := by
      rw [hne, hchs]
      simp
    refine ⟨by rw [hn, hp, hsus], fun hr => ?_, fun ht => ?_⟩
    · rw [hiff, hsame]
      exact hs.atReset (hp ▸ hr)
    · rw [hiff, hsame, hn, hc]
      exact hs.atTake (hp ▸ ht)
  · refine ⟨by rw [hn, hp']; rfl, fun hr => ?_, fun ht => ?_⟩
    · rw [hp'] at hr
      cases hr
    · rw [hp'] at ht
      cases ht
  · refine ⟨by rw [hn, hp', if_neg hp], fun hr => ?_, fun ht => ?_⟩
    · rw [hp'] at hr
      have hold := hs.atReset hr
      rw [hhit, hr, hne, hold]
      cases chs <;> simp
    · rw [hp'] at ht
      refine ⟨?_, iff_of_true hsome (Or.inr (by omega))⟩
      rw [hn, hc, (hs.atTake ht).1]
      exact (BitVec.ofNat_add s.calls 1).symm

theorem rxInv_thread {s t : Rx α κ n} (hs : RxInv s) (h : rxThread c s = some t) : RxInv t := by
  have hsus := hs.suspended
  rcases rx_thread h with ⟨hp, hnil, rfl⟩ | ⟨hp, ch, -, -, -, -, hn, hpt⟩ | ⟨hp, rfl⟩ |
    ⟨hp, -, rfl⟩ | ⟨hp, -, rfl⟩
  · rw [hp] at hsus
    exact ⟨hsus, fun _ => by simp [hnil], fun e => (by cases e)⟩
  · rw [hp] at hsus
    exact rxInv_next (hn ▸ hsus) (hpt ▸ next_cases c t.locals)
  · refine ⟨rfl, fun e => (by cases e), fun _ => ⟨rfl, ?_⟩⟩
    rw [hs.atReset hp]
    simp
  · rw [hp] at hsus
    exact ⟨hsus, fun e => (by cases e), fun e => (by cases e)⟩
  · rw [hp] at hsus
    exact ⟨by rw [hsus]; rfl, fun e => (by cases e), fun e => (by cases e)⟩

theorem rxInv_step {s t : Rx α κ n} {a : RxAct α} (hs : RxInv s) (h : rxStep c s a = some t) :
    RxInv t := by
  cases a with
  | isr chs => exact rxInv_isr hs h
  | thread => exact rxInv_thread hs h
  | timeout =>
    obtain ⟨-, rfl⟩ := rx_timeout h
    exact rxInv_next rfl (next_cases c _)

/-! ## served or not -/

/-- the device, for the reader that the thread is -/
def Rx.uart (s : Rx α κ n) : Uart α n := ⟨s.fifo, s.came, s.got⟩

/-- the interrupt stores no more characters than there is room for -/
def RoomFor (s : Rx α κ n) (a : RxAct α) (_ : Rx α κ n) : Prop :=
  ∀ chs, a = .isr chs → s.fifo.contents.length + chs.length ≤ n - 1

/-- the thread does not go on to the take after a miss -/
def Heeded (s : Rx α κ n) (a : RxAct α) (_ : Rx α κ n) : Prop :=
  a = .thread → s.pc = .take → ¬ s.Missed

theorem roomFor_isr {s t : Rx α κ n} {chs : List α} :
    RoomFor s (.isr chs) t ↔ s.fifo.contents.length + chs.length ≤ n - 1 := by
  refine ⟨fun h => h chs rfl, fun h chs' e => ?_⟩
  cases e
  exact h

theorem roomFor_thread (s t : Rx α κ n) : RoomFor s .thread t := fun _ e => (by cases e)
theorem roomFor_timeout (s t : Rx α κ n) : RoomFor s .timeout t := fun _ e => (by cases e)
theorem heeded_isr (s t : Rx α κ n) (chs : List α) : Heeded s (.isr chs) t := fun e => (by cases e)
theorem heeded_timeout (s t : Rx α κ n) : Heeded s .timeout t := fun e => (by cases e)

theorem heeded_thread {s t : Rx α κ n} : Heeded s .thread t ↔ (s.pc = .take → ¬ s.Missed) :=
  ⟨fun h => h rfl, fun h _ => h⟩

instance decidableRoomFor (s : Rx α κ n) : (a : RxAct α) → (t : Rx α κ n) → Decidable (RoomFor s a t)
  | .isr _, _ => decidable_of_iff' _ roomFor_isr
  | .thread, t => isTrue (roomFor_thread s t)
  | .timeout, t => isTrue (roomFor_timeout s t)

instance decidableHeeded (s : Rx α κ n) : (a : RxAct α) → (t : Rx α κ n) → Decidable (Heeded s a t)
  | .isr chs, t => isTrue (heeded_isr s t chs)
  | .thread, _ => decidable_of_iff' _ heeded_thread
  | .timeout, t => isTrue (heeded_timeout s t)

/-- nothing is lost, and the thread sleeps only while there is nothing to read -/
structure Rx.Served (s : Rx α κ n) : Prop where
  intact : s.uart.Intact
  awake : s.pc = .asleep → s.fifo.contents = []

theorem uart_fair {s : Uart α n} (h : s.Intact) : s.Fair := by
  unfold Uart.Intact at h
  exact ⟨⟨s.read, h⟩, h ▸ List.Sublist.refl _⟩

theorem intact_call (fifo : RxFifo α n) (value : BitVec 16) (locals : κ) :
    (rxCall c fifo value locals).uart.Intact :=
  List.nil_append _

theorem intact_isr {s t : Rx α κ n} {chs : List α} (hs : RxInv s) (hi : s.uart.Intact)
    (h : rxStep c s (.isr chs) = some t) :
    t.uart.Intact ↔ s.fifo.contents.length + chs.length ≤ n - 1 := by
  obtain ⟨hf, hm, hg, -⟩ := rx_isr hs h
  have e : uartStep s.uart (.isr chs) = some t.uart := by
    unfold Rx.uart
    rw [hf, hm, hg]
    rfl
  rw [intact_step (uart_fair hi) e, and_iff_right hi]
  exact hasRoom_isr

theorem intact_thread {s t : Rx α κ n} (hi : s.uart.Intact) (h : rxThread c s = some t) :
    t.uart.Intact := by
  rcases rx_thread h with ⟨-, -, rfl⟩ | ⟨-, ch, hc, hg, hm, -⟩ | ⟨-, rfl⟩ | ⟨-, -, rfl⟩ |
    ⟨-, -, rfl⟩
  · exact hi
  · have hi' : s.got ++ s.fifo.contents = s.came := hi
    show t.got ++ t.fifo.contents = t.came
    rw [hg, hm, List.append_assoc, List.singleton_append, ← hc, hi']
  · exact hi
  · exact hi
  · exact hi

theorem rx_intact {s t : Rx α κ n} {a : RxAct α} (hs : RxInv s) (hi : s.uart.Intact)
    (h : rxStep c s a = some t) (hroom : RoomFor s a t) : t.uart.Intact := by
  cases a with
  | isr chs => exact (intact_isr hs hi h).mpr (roomFor_isr.mp hroom)
  | thread => exact intact_thread hi h
  | timeout =>
    obtain ⟨-, rfl⟩ := rx_timeout h
    exact hi

theorem missed_iff {s : Rx α κ n} (hs : RxInv s) (hp : s.pc = .take) :
    s.Missed ↔ s.fifo.contents ≠ [] ∧ s.notice.value = 0 := by
  obtain ⟨hv, hne⟩ := hs.atTake hp
  unfold Rx.Missed
  rw [hne, hv, ← BitVec.toNat_inj, BitVec.toNat_ofNat, Nat.dvd_iff_mod_eq_zero]
  rfl

theorem served_step {s t : Rx α κ n} {a : RxAct α} (hs : RxInv s) (hi : s.uart.Intact)
    (h : rxStep c s a = some t) : RoomFor s a t ∧ Heeded s a t ↔ t.Served := by
  cases a with
  | isr chs =>
    have hiff := intact_isr hs hi h
    obtain ⟨-, -, -, -, -, hcases⟩ := rx_isr hs h
    constructor
    · rintro ⟨hroom, -⟩
      refine ⟨hiff.mpr (hroom chs rfl), fun hp => ?_⟩
      rcases hcases with ⟨hnil, -⟩ | ⟨-, -, hp', -⟩ | ⟨-, hp', hp'', -⟩
      · exact hnil
      · rw [hp'] at hp
        cases hp
      · exact absurd (hp'' ▸ hp) hp'
    · intro ht
      exact ⟨roomFor_isr.mpr (hiff.mp ht.intact), heeded_isr s t chs⟩
  | thread =>
    have hit := intact_thread hi h
    rw [and_iff_right (roomFor_thread s t), heeded_thread]
    by_cases htake : s.pc = .take
    · rw [imp_iff_right htake, missed_iff hs htake]
      rcases rx_thread h with ⟨hp, -⟩ | ⟨hp, -⟩ | ⟨hp, -⟩ | ⟨-, hv, rfl⟩ | ⟨-, hv, rfl⟩
      · exact absurd (hp.symm.trans htake) RxPc.noConfusion
      · exact absurd (hp.symm.trans htake) RxPc.noConfusion
      · exact absurd (hp.symm.trans htake) RxPc.noConfusion
      · refine ⟨fun _ => ⟨hit, fun e => (by cases e)⟩, fun _ hb => ?_⟩
        rw [hb.2] at hv
        exact absurd hv (by decide)
      · constructor
        · intro hno
          refine ⟨hit, fun _ => ?_⟩
          by_contra hne
          exact hno ⟨hne, hv⟩
        · intro ht hb
          exact hb.1 (ht.awake rfl)
    · refine ⟨fun _ => ⟨hit, fun hp => ?_⟩, fun _ e => absurd e htake⟩
      rcases rx_thread h with ⟨-, -, rfl⟩ | ⟨-, ch, -, -, -, -, -, hpt⟩ | ⟨-, rfl⟩ |
        ⟨e, -⟩ | ⟨e, -⟩
      · cases hp
      · exact absurd (hpt.symm.trans hp) (next_ne_asleep c _)
      · cases hp
      · exact absurd e htake
      · exact absurd e htake
  | timeout =>
    obtain ⟨-, rfl⟩ := rx_timeout h
    refine ⟨fun _ => ⟨hi, fun hp => ?_⟩, fun _ => ⟨roomFor_timeout s _, heeded_timeout s _⟩⟩
    exact absurd hp (next_ne_asleep c _)

/-- **A function that waits for characters is served, in every interleaving with the interrupt,
exactly if no burst is longer than the room left and no take comes after a miss.** -/
theorem served_iff (c : Caller α κ) (fifo : RxFifo α n) (value : BitVec 16) (locals : κ)
    (as : List (RxAct α)) :
    Trace.Along (rxStep c) (fun s a t => RoomFor s a t ∧ Heeded s a t) (rxCall c fifo value locals)
        as ↔
      Trace.Along (rxStep c) (fun _ _ t => t.Served) (rxCall c fifo value locals) as := by
  refine Trace.along_iff_of_step (I := fun s => RxInv s ∧ s.uart.Intact) ?_ ?_
    ⟨rxInv_call fifo value locals, intact_call fifo value locals⟩ as
  · rintro s a t ⟨hs, hi⟩ h
    exact served_step hs hi h
  · rintro s a t ⟨hs, hi⟩ h hg
    exact ⟨rxInv_step hs h, ((served_step hs hi h).mp hg).intact⟩

/-- without time-outs the locals of the caller are what the characters made of them -/
theorem locals_eq_foldl {s t : Rx α κ n} {start : κ} {as : List (RxAct α)} (hno : RxAct.timeout ∉ as)
    (hs : RxInv s) (he : s.locals = s.got.foldl c.feed start)
    (hr : Trace.run (rxStep c) s as = some t) : t.locals = t.got.foldl c.feed start := by
  have hmem : ∀ a ∈ as, a ≠ .timeout := fun a ha e => hno (e ▸ ha)
  have hg : Trace.Along (rxStep c) (fun _ a _ => a ≠ .timeout) s as := Trace.along_of_mem hmem s
  refine (Trace.run_inv (I := fun s => RxInv s ∧ s.locals = s.got.foldl c.feed start) ?_ as s t
    ⟨hs, he⟩ hg hr).2
  rintro u a v ⟨hu, e⟩ h hne
  refine ⟨rxInv_step hu h, ?_⟩
  cases a with
  | isr chs =>
    obtain ⟨-, -, hgot, hloc, -⟩ := rx_isr hu h
    rw [hgot, hloc, e]
  | thread =>
    rcases rx_thread h with ⟨-, -, rfl⟩ | ⟨-, ch, -, hgot, -, hloc, -⟩ | ⟨-, rfl⟩ | ⟨-, -, rfl⟩ |
      ⟨-, -, rfl⟩
    · exact e
    · rw [hgot, hloc, e, List.foldl_append]
      rfl
    · exact e
    · exact e
    · exact e
  | timeout => exact absurd rfl hne

end ENV

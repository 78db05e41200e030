import Enviroment.Lib.RingBuffer
import Enviroment.Lib.Trace

/-!
# The receive buffer of a serial device (`serial.c`)

The devices are opened with `RT_DEVICE_FLAG_INT_RX`: the interrupt stores what the receiver got, and
`rt_device_read` takes it out, one character for each time that interrupts are disabled.  `put_index`
never stays on `get_index`: an interrupt that gets there drops the oldest character, so a buffer of
`n` places holds `n - 1` characters, and `is_full` tells a reader nothing that the indices do not.

* `RxFifo.store`, `RxFifo.take`   the bodies of the loops of `rt_hw_serial_isr` and `_serial_int_rx`;
* `RxFifo.contents`               the characters that wait to be read;
* `contents_store`                a queue of `n - 1` places that loses its oldest item;
* `Uart`, `uartStep`              interrupts and readers of the device in any order;
* `uart_intact_iff`               what is read and what waits is what came, exactly if no interrupt
                                  stores more than there is room for.
-/

namespace ENV

variable {α : Type*} {n : Nat}

/-! ## the buffer -/

/-- the number of characters between two indices -/
def rxLen (n put get : Nat) : Nat := if put ≥ get then put - get else n - (get - put)

theorem rxLen_lt {put get : Nat} (hp : put < n) : rxLen n put get < n := by
  unfold rxLen
  split <;> omega

theorem rxLen_eq_zero {put get : Nat} (hg : get < n) : rxLen n put get = 0 ↔ get = put := by
  unfold rxLen
  split <;> omega

theorem rxLen_bump_put {put get : Nat} (hp : put < n) (hg : get < n) (h : bump n put ≠ get) :
    rxLen n (bump n put) get = rxLen n put get + 1 := by
  grind [bump, rxLen]

theorem rxLen_bump_get {put get : Nat} (hp : put < n) (hg : get < n) (h : get ≠ put) :
    rxLen n put (bump n get) = rxLen n put get - 1 := by
  grind [bump, rxLen]

theorem rxLen_bump {put get : Nat} (hp : put < n) (hg : get < n) (h : bump n put = get) :
    rxLen n put get = n - 1 ∧ rxLen n (bump n put) (bump n get) = n - 1 := by
  grind [bump, rxLen]

/-- `struct rt_serial_rx_fifo` with a buffer of `config.bufsz` places -/
structure RxFifo (α : Type*) (n : Nat) where
  buffer : Fin n → α
  putIndex : Nat
  getIndex : Nat
  isFull : Bool
  one_lt : 1 < n
  put_lt : putIndex < n
  get_lt : getIndex < n
  get_of_full : isFull = true → getIndex = bump n putIndex

namespace RxFifo

/-- `rt_serial_open`: the buffer is cleared -/
def opened (blank : α) (h : 1 < n) : RxFifo α n :=
  ⟨fun _ => blank, 0, 0, false, h, Nat.lt_trans Nat.zero_lt_one h, Nat.lt_trans Nat.zero_lt_one h,
    fun h => Bool.noConfusion h⟩

/-- a character of the interrupt goes to `put_index`; if that gets to `get_index`, the oldest
character is dropped -/
def store (f : RxFifo α n) (ch : α) : RxFifo α n :=
  if h : bump n f.putIndex = f.getIndex then
    { f with
      buffer := Function.update f.buffer ⟨f.putIndex, f.put_lt⟩ ch
      putIndex := bump n f.putIndex
      getIndex := bump n f.getIndex
      isFull := true
      put_lt := bump_lt f.put_lt
      get_lt := bump_lt f.get_lt
      get_of_full := fun _ => by rw [h] }
  else
    { f with
      buffer := Function.update f.buffer ⟨f.putIndex, f.put_lt⟩ ch
      putIndex := bump n f.putIndex
      put_lt := bump_lt f.put_lt
      get_of_full := fun hf => absurd (f.get_of_full hf).symm h }

/-- one pass of the loop of `_serial_int_rx` -/
def take (f : RxFifo α n) : Option (α × RxFifo α n) :=
  if f.getIndex = f.putIndex ∧ f.isFull = false then none
  else some (f.buffer ⟨f.getIndex, f.get_lt⟩,
    { f with
      getIndex := bump n f.getIndex
      isFull := false
      get_lt := bump_lt f.get_lt
      get_of_full := fun h => Bool.noConfusion h })

/-- `rx_length` in `rt_hw_serial_isr` -/
def rxLength (f : RxFifo α n) : Nat := rxLen n f.putIndex f.getIndex

/-- the loop of `rt_hw_serial_isr` over the characters that `getc` returns -/
def storeAll (f : RxFifo α n) (chs : List α) : RxFifo α n := chs.foldl store f

/-- the ring of the characters that wait -/
def ring (f : RxFifo α n) : RingBuffer α n where
  buf := f.buffer
  entry := f.rxLength
  inOff := f.putIndex
  outOff := f.getIndex
  entry_le := Nat.le_of_lt (rxLen_lt f.put_lt)
  out_lt := f.get_lt
  in_eq := by
    have := f.put_lt
    have := f.get_lt
    unfold rxLength rxLen slot
    split <;> split <;> omega

/-- the characters that wait to be read, oldest first -/
def contents (f : RxFifo α n) : List α := f.ring.contents

theorem length_contents (f : RxFifo α n) : f.contents.length = f.rxLength := f.ring.length_contents

theorem rxLength_lt (f : RxFifo α n) : f.rxLength < n := rxLen_lt f.put_lt

theorem contents_opened (blank : α) (h : 1 < n) : (opened blank h).contents = [] :=
  (RingBuffer.contents_eq_nil _).mpr rfl

/-- `is_full` is set with `n - 1` characters in the buffer, never with none -/
theorem get_ne_put_of_full (f : RxFifo α n) (h : f.isFull = true) : f.getIndex ≠ f.putIndex := by
  have h1 := f.one_lt
  have hp := f.put_lt
  have hg := f.get_of_full h
  unfold bump at hg
  split at hg <;> omega

theorem contents_eq_nil (f : RxFifo α n) : f.contents = [] ↔ f.getIndex = f.putIndex :=
  (RingBuffer.contents_eq_nil _).trans (rxLen_eq_zero f.get_lt)

/-- **A reader finds the buffer empty exactly if no character waits; else it gets the oldest.** -/
theorem take_nil (f : RxFifo α n) : f.take = none ↔ f.contents = [] := by
  rw [contents_eq_nil]
  unfold take
  split
  next h => exact ⟨fun _ => h.1, fun _ => rfl⟩
  next h =>
    constructor
    · intro e
      cases e
    · intro e
      cases hf : f.isFull with
      | true => exact absurd e (f.get_ne_put_of_full hf)
      | false => exact absurd ⟨e, hf⟩ h

theorem take_cons {f g : RxFifo α n} {ch : α} (h : f.take = some (ch, g)) :
    f.contents = ch :: g.contents := by
  have hne : f.getIndex ≠ f.putIndex := by
    intro e
    rw [(take_nil f).mpr ((contents_eq_nil f).mpr e)] at h
    cases h
  have hpos : 0 < f.ring.entry := by
    have hlen := f.length_contents
    rcases Nat.eq_zero_or_pos f.rxLength with h0 | h0
    · exact absurd ((contents_eq_nil f).mp (List.length_eq_zero_iff.mp (hlen.trans h0))) hne
    · exact h0
  unfold take at h
  rw [if_neg (fun h => hne h.1)] at h
  obtain ⟨rfl, rfl⟩ := Prod.mk.inj (Option.some.inj h)
  refine (f.ring.contents_pop hpos).trans (congrArg (f.ring.head :: ·) (congrArg _ ?_))
  exact RingBuffer.eq_of rfl (rxLen_bump_get f.put_lt f.get_lt hne).symm rfl rfl

/-- **The interrupt appends a character; with `n - 1` characters waiting it drops the oldest.** -/
theorem contents_store (f : RxFifo α n) (ch : α) :
    (f.store ch).contents = (f.contents ++ [ch]).drop (f.contents.length + 1 - (n - 1)) := by
  have hlt := f.rxLength_lt
  have hpush := f.ring.contents_push hlt ch
  rw [length_contents]
  by_cases h : bump n f.putIndex = f.getIndex
  · obtain ⟨hlen, hnew⟩ := rxLen_bump f.put_lt f.get_lt h
    have hlen' : f.rxLength = n - 1 := hlen
    have e : (f.store ch).ring = (f.ring.push hlt ch).pop (Nat.succ_pos _) := by
      unfold store
      rw [dif_pos h]
      exact RingBuffer.eq_of rfl (hnew.trans hlen.symm) rfl rfl
    have hpop := (f.ring.push hlt ch).contents_pop (Nat.succ_pos _)
    rw [hlen', show n - 1 + 1 - (n - 1) = 1 by omega]
    show (f.store ch).ring.contents = (f.ring.contents ++ [ch]).drop 1
    rw [e, ← hpush, hpop]
    rfl
  · have hnew := rxLen_bump_put f.put_lt f.get_lt h
    have hroom : f.rxLength + 1 < n := by
      have := @rxLen_lt n _ f.getIndex (bump_lt f.put_lt)
      rw [hnew] at this
      exact this
    have e : (f.store ch).ring = f.ring.push hlt ch := by
      unfold store
      rw [dif_neg h]
      exact RingBuffer.eq_of rfl hnew rfl rfl
    rw [show f.rxLength + 1 - (n - 1) = 0 by omega]
    show (f.store ch).ring.contents = f.ring.contents ++ [ch]
    rw [e, hpush]

theorem length_contents_le (f : RxFifo α n) : f.contents.length ≤ n - 1 := by
  have := f.rxLength_lt
  rw [length_contents]
  omega

theorem contents_storeAll (f : RxFifo α n) (chs : List α) :
    (f.storeAll chs).contents =
      (f.contents ++ chs).drop (f.contents.length + chs.length - (n - 1)) := by
  induction chs generalizing f with
  | nil =>
    have := f.length_contents_le
    rw [List.append_nil, List.length_nil, show f.contents.length + 0 - (n - 1) = 0 by omega]
    rfl
  | cons ch chs ih =>
    have hlen := f.length_contents_le
    have hdrop : (f.contents ++ [ch]).length = f.contents.length + 1 := List.length_append
    show ((f.store ch).storeAll chs).contents = _
    rw [ih, contents_store, ← List.drop_append_of_le_length (by omega), List.drop_drop,
      List.length_drop, hdrop, List.append_assoc, List.length_cons]
    congr 1
    omega

/-- `rt_hw_serial_isr` calls `rx_indicate` -/
def indicates (f : RxFifo α n) : Bool := f.rxLength != 0

theorem indicates_iff (f : RxFifo α n) : f.indicates = true ↔ f.contents ≠ [] := by
  rw [indicates, bne_iff_ne, ← length_contents, Ne, List.length_eq_zero_iff]

theorem storeAll_eq_nil (f : RxFifo α n) (chs : List α) :
    (f.storeAll chs).contents = [] ↔ f.contents = [] ∧ chs = [] := by
  have h1 := f.one_lt
  have hlen := congrArg List.length (f.contents_storeAll chs)
  rw [List.length_drop, List.length_append] at hlen
  rw [← List.length_eq_zero_iff, ← List.length_eq_zero_iff, ← List.length_eq_zero_iff]
  omega

/-- the interrupt keeps the last characters of what waited and what came -/
theorem storeAll_suffix (f : RxFifo α n) (chs : List α) :
    (f.storeAll chs).contents <:+ f.contents ++ chs := by
  rw [contents_storeAll]
  exact List.drop_suffix _ _

theorem length_storeAll (f : RxFifo α n) (chs : List α) :
    (f.storeAll chs).contents.length = min (f.contents.length + chs.length) (n - 1) := by
  rw [contents_storeAll, List.length_drop, List.length_append]
  omega

end RxFifo

/-! ## interrupts and readers in any order -/

/-- a serial device; no code looks at the two lists -/
structure Uart (α : Type*) (n : Nat) where
  fifo : RxFifo α n
  /-- what the receiver got, in the order of arrival -/
  came : List α
  /-- what the readers got -/
  read : List α

inductive UartAct (α : Type*) where
  /-- `rt_hw_serial_isr(serial, RT_SERIAL_EVENT_RX_IND)`, with what `getc` returns before the `-1` -/
  | isr (chs : List α)
  /-- a pass of the loop of `_serial_int_rx`, by any reader -/
  | take

def uartStep (s : Uart α n) : UartAct α → Option (Uart α n)
  | .isr chs => some ⟨s.fifo.storeAll chs, s.came ++ chs, s.read⟩
  | .take =>
    match s.fifo.take with
    | none => some s
    | some (ch, fifo) => some ⟨fifo, s.came, s.read ++ [ch]⟩

def uartOpened (blank : α) (h : 1 < n) : Uart α n := ⟨RxFifo.opened blank h, [], []⟩

/-- the interrupt stores no more characters than there is room for -/
def HasRoom (s : Uart α n) (a : UartAct α) (_ : Uart α n) : Prop :=
  ∀ chs, a = .isr chs → s.fifo.contents.length + chs.length ≤ n - 1

theorem hasRoom_isr {s t : Uart α n} {chs : List α} :
    HasRoom s (.isr chs) t ↔ s.fifo.contents.length + chs.length ≤ n - 1 := by
  refine ⟨fun h => h chs rfl, fun h chs' e => ?_⟩
  cases e
  exact h

/-- every character that came was read or waits -/
def Uart.Intact (s : Uart α n) : Prop := s.read ++ s.fifo.contents = s.came

/-- what waits came last, and nothing was read twice or out of order -/
structure Uart.Fair (s : Uart α n) : Prop where
  waits : s.fifo.contents <:+ s.came
  sub : (s.read ++ s.fifo.contents).Sublist s.came

theorem uart_cases {s t : Uart α n} {a : UartAct α} (h : uartStep s a = some t) :
    (∃ chs, a = .isr chs ∧ t = ⟨s.fifo.storeAll chs, s.came ++ chs, s.read⟩) ∨
      (a = .take ∧ s.fifo.contents = [] ∧ t = s) ∨
      (a = .take ∧ ∃ ch, t.read = s.read ++ [ch] ∧ s.fifo.contents = ch :: t.fifo.contents ∧
        t.came = s.came) := by
  cases a with
  | isr chs => exact Or.inl ⟨chs, rfl, (Option.some.inj h).symm⟩
  | take =>
    right
    rw [uartStep] at h
    cases hs : s.fifo.take with
    | none =>
      rw [hs] at h
      exact Or.inl ⟨rfl, (RxFifo.take_nil _).mp hs, (Option.some.inj h).symm⟩
    | some p =>
      rw [hs] at h
      cases h
      exact Or.inr ⟨rfl, p.1, rfl, RxFifo.take_cons hs, rfl⟩

theorem fair_opened (blank : α) (h : 1 < n) : (uartOpened blank h).Fair := by
  have e : (uartOpened blank h).fifo.contents = [] := RxFifo.contents_opened blank h
  refine ⟨?_, ?_⟩
  · rw [e]
    exact List.nil_suffix
  · rw [e]
    exact List.Sublist.refl _

theorem fair_step {s t : Uart α n} {a : UartAct α} (hs : s.Fair) (h : uartStep s a = some t) :
    t.Fair := by
  rcases uart_cases h with ⟨chs, -, rfl⟩ | ⟨-, -, rfl⟩ | ⟨-, ch, hr, hc, hm⟩
  · have hsuf := s.fifo.storeAll_suffix chs
    have hw : s.fifo.contents ++ chs <:+ s.came ++ chs := List.suffix_append_self_iff.mpr hs.waits
    refine ⟨hsuf.trans hw, ?_⟩
    calc (s.read ++ (s.fifo.storeAll chs).contents).Sublist (s.read ++ (s.fifo.contents ++ chs)) :=
          hsuf.sublist.append_left _
      _ = s.read ++ s.fifo.contents ++ chs := (List.append_assoc ..).symm
      List.Sublist _ (s.came ++ chs) := hs.sub.append_right _
  · exact hs
  · refine ⟨?_, ?_⟩
    · rw [hm]
      exact List.IsSuffix.trans ⟨[ch], hc.symm⟩ hs.waits
    · rw [hr, hm, List.append_assoc, List.singleton_append, ← hc]
      exact hs.sub

theorem Uart.Fair.intact_iff {s : Uart α n} (h : s.Fair) :
    s.Intact ↔ s.came.length = s.read.length + s.fifo.contents.length := by
  rw [← List.length_append]
  exact ⟨fun e => congrArg List.length e.symm, fun e => h.sub.eq_of_length e.symm⟩

/-- a character that is dropped is lost for good -/
theorem intact_step {s t : Uart α n} {a : UartAct α} (hs : s.Fair) (h : uartStep s a = some t) :
    t.Intact ↔ s.Intact ∧ HasRoom s a t := by
  have ht := fair_step hs h
  rcases uart_cases h with ⟨chs, rfl, rfl⟩ | ⟨rfl, -, rfl⟩ | ⟨rfl, ch, hr, hc, hm⟩
  · have hlen := s.fifo.length_storeAll chs
    have hle := hs.sub.length_le
    rw [ht.intact_iff, hs.intact_iff, hasRoom_isr]
    rw [List.length_append] at hle ⊢
    dsimp only
    rw [hlen]
    omega
  · exact ⟨fun h => ⟨h, fun _ e => by cases e⟩, fun h => h.1⟩
  · have e : s.Intact ↔ t.Intact := by
      unfold Uart.Intact
      rw [hr, hm, hc, List.append_assoc, List.singleton_append]
    exact ⟨fun h => ⟨e.mpr h, fun _ e => by cases e⟩, fun h => e.mp h.1⟩

/-- **Readers get a part of what came, in order, and what came last waits for them.  Nothing is lost
exactly if no interrupt stores more characters than there are places left, of `n - 1`.** -/
theorem uart_intact_iff (blank : α) (h : 1 < n) (as : List (UartAct α)) (t : Uart α n)
    (hr : Trace.run uartStep (uartOpened blank h) as = some t) :
    t.fifo.contents <:+ t.came ∧ (t.read ++ t.fifo.contents).Sublist t.came ∧
      (t.read ++ t.fifo.contents = t.came ↔
        Trace.Along uartStep HasRoom (uartOpened blank h) as) := by
  have hfair := Trace.run_inv (G := fun _ _ _ => True) (fun _ _ _ hs hst _ => fair_step hs hst) as
    _ _ (fair_opened blank h) (Trace.along_of_forall (fun _ _ _ => trivial) _ _) hr
  have hstart : (uartOpened blank h).Intact := RxFifo.contents_opened blank h
  have hlast := Trace.last_iff_along (I := Uart.Fair) (P := Uart.Intact)
    (fun _ _ _ hs hst => fair_step hs hst) (fun _ _ _ hs hst => intact_step hs hst) as _ _
    (fair_opened blank h) hr
  exact ⟨hfair.waits, hfair.sub, hlast.trans (and_iff_right hstart)⟩

/-- `RT_SERIAL_RB_BUFSZ` -/
def rtSerialRbBufsz : Nat := 64

theorem one_lt_rbBufsz : 1 < rtSerialRbBufsz := by decide

/-- 64 characters in one burst are one too many for the 64 places -/
theorem uart_overrun : ∃ chs : List Nat, chs.length = rtSerialRbBufsz ∧
    ∃ t, Trace.run uartStep (uartOpened 0 one_lt_rbBufsz) [.isr chs, .take] = some t ∧
      t.read ++ t.fifo.contents ≠ t.came := by
  obtain ⟨chs, hchs⟩ : ∃ chs : List Nat, chs.length = rtSerialRbBufsz :=
    ⟨List.range 64, List.length_range⟩
  obtain ⟨t, ht⟩ : ∃ t, Trace.run uartStep (uartOpened 0 one_lt_rbBufsz) [.isr chs, .take] =
      some t := by
    rw [Trace.run_cons_some (t := ⟨_, _, _⟩) rfl, Trace.run_cons, uartStep]
    split
    · exact ⟨_, rfl⟩
    · exact ⟨_, rfl⟩
  refine ⟨chs, hchs, t, ht, fun e => ?_⟩
  have hroom := (uart_intact_iff 0 one_lt_rbBufsz [.isr chs, .take] t ht).2.2.mp e
  have h := (hroom ⟨_, _, _⟩ rfl).1 chs rfl
  rw [hchs] at h
  have hn : rtSerialRbBufsz - 1 = 63 := rfl
  have hn' : rtSerialRbBufsz = 64 := rfl
  omega

end ENV

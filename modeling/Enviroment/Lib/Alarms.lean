import Mathlib.Algebra.GroupWithZero.Nat
import Mathlib.Data.Option.Basic
import Mathlib.Tactic.Common

/-!
# Alarms, and moments on a counter that wraps

* `Alarm`, `AlarmAct`   an alarm clock on its own, its time counted without end;
* `sub_lt_iff`          two moments less than half a turn apart: the difference of what the counter
                        shows tells which one is later.

Nothing here knows the program.
-/

namespace Alarms

/-! ## an alarm clock -/

structure Alarm where
  now : Nat
  /-- when it rings next -/
  due : Option Nat
  /-- ticks from a start to the ring -/
  delay : Nat
  /-- start again at each ring -/
  again : Bool
  /-- when it has rung, the last time first -/
  rung : List Nat

inductive AlarmAct where
  | delay (d : Nat)
  | again (b : Bool)
  | start
  | stop
  | tick
  /-- somebody else's -/
  | other

/-- the moment of the ring: a tick from now at the earliest -/
def Alarm.moment (a : Alarm) : Nat := a.now + max 1 a.delay

def Alarm.start (a : Alarm) : Alarm := { a with due := some a.moment }

def Alarm.ring (a : Alarm) : Alarm :=
  let b := { a with rung := a.now :: a.rung, due := none }
  if a.again then b.start else b

def Alarm.tick (a : Alarm) : Alarm :=
  let b := { a with now := a.now + 1 }
  if a.due = some (a.now + 1) then b.ring else b

def Alarm.step (a : Alarm) : AlarmAct → Alarm
  | .delay d => { a with delay := d }
  | .again b => { a with again := b }
  | .start => a.start
  | .stop => { a with due := none }
  | .tick => a.tick
  | .other => a

theorem ring_again {a : Alarm} (h : a.again = true) :
    a.ring = { a with rung := a.now :: a.rung, due := some a.moment } :=
  if_pos h

theorem ring_once {a : Alarm} (h : a.again = false) :
    a.ring = { a with rung := a.now :: a.rung, due := none } :=
  if_neg (by rw [h]; decide)

/-! ## a counter that wraps -/

section
variable {w : Nat} {m n : Nat}

theorem toNat_sub_of_le (h : m ≤ n) (hn : n - m < 2 ^ w) :
    (BitVec.ofNat w n - BitVec.ofNat w m).toNat = n - m := by
  have e : BitVec.ofNat w n - BitVec.ofNat w m = BitVec.ofNat w (n - m) := by
    rw [← Nat.sub_add_cancel h, BitVec.ofNat_add, Nat.add_sub_cancel]
    exact BitVec.add_sub_cancel _ _
  rw [e, BitVec.toNat_ofNat, Nat.mod_eq_of_lt hn]

theorem toNat_sub_of_lt (h : m < n) (hn : n - m < 2 ^ w) :
    (BitVec.ofNat w m - BitVec.ofNat w n).toNat = 2 ^ w - (n - m) := by
  have e : BitVec.ofNat w m - BitVec.ofNat w n = -(BitVec.ofNat w n - BitVec.ofNat w m) := by
    rw [BitVec.neg_sub, BitVec.add_comm, ← BitVec.sub_eq_add_neg]
  rw [e, BitVec.toNat_neg, toNat_sub_of_le (Nat.le_of_lt h) hn,
    Nat.mod_eq_of_lt (by omega)]

/-- **Which of two moments is later**, from what the counter showed at each of them. -/
theorem sub_lt_iff {half : BitVec w} (hn : n < m + half.toNat) (hm : m + half.toNat ≤ n + 2 ^ w) :
    BitVec.ofNat w n - BitVec.ofNat w m < half ↔ m ≤ n := by
  have hhalf := half.isLt
  rw [BitVec.lt_def]
  rcases Nat.lt_or_ge n m with hlt | hge
  · rcases Nat.lt_or_ge (m - n) (2 ^ w) with hw | hw
    · rw [toNat_sub_of_lt hlt hw]
      omega
    · omega
  · rw [toNat_sub_of_le hge (by omega)]
    omega

theorem sub_eq_zero_iff (h : m < n + 2 ^ w) (h' : n < m + 2 ^ w) :
    BitVec.ofNat w n - BitVec.ofNat w m = 0 ↔ n = m := by
  constructor
  · intro e
    have e' := congrArg BitVec.toNat e
    rw [show (0 : BitVec w).toNat = 0 from BitVec.toNat_zero] at e'
    rcases Nat.lt_or_ge n m with hlt | hge
    · rw [toNat_sub_of_lt hlt (by omega)] at e'
      omega
    · rw [toNat_sub_of_le hge (by omega)] at e'
      omega
  · rintro rfl
    exact BitVec.sub_self _

end

end Alarms

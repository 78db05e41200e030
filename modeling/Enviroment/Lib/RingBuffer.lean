import Mathlib.Data.List.Basic
import Mathlib.Logic.Function.Basic
import Mathlib.Tactic.Common

/-!
# A circular buffer of fixed capacity

`RingBuffer α n` is an array of `n` places: `entry` items from `outOff` on, the next one goes to
`inOff`, an offset that reaches `n` starts again at `0`.  The record carries the relation between
the three numbers, so a ring that is not one cannot be built.

* `RingBuffer.push`, `RingBuffer.pop`   the two updates, with the wrap as a comparison;
* `RingBuffer.contents`                 the queue that the array stands for;
* `contents_push`, `contents_pop`       the ring is the queue: first in, first out.
-/

set_option linter.unusedVariables false

variable {α : Type*}

/-- the place that is `k` steps after `a`, for `a < n` and `k ≤ n` -/
def slot (n a k : Nat) : Nat := if a + k < n then a + k else a + k - n

/-- `++i; if (i >= n) i = 0;` -/
def bump (n i : Nat) : Nat := if i + 1 ≥ n then 0 else i + 1

theorem slot_lt {n a k : Nat} (ha : a < n) (hk : k ≤ n) : slot n a k < n := by
  unfold slot
  split <;> omega

theorem slot_zero {n a : Nat} (ha : a < n) : slot n a 0 = a := by
  unfold slot
  split <;> omega

theorem bump_lt {n i : Nat} (hi : i < n) : bump n i < n := by
  unfold bump
  split <;> omega

theorem bump_slot {n a k : Nat} (ha : a < n) (hk : k < n) :
    bump n (slot n a k) = slot n a (k + 1) := by
  unfold bump slot
  split <;> split <;> split <;> omega

theorem slot_bump {n a k : Nat} (ha : a < n) (hk : k < n) :
    slot n (bump n a) k = slot n a (k + 1) := by
  unfold bump slot
  split <;> split <;> split <;> omega

theorem slot_ne {n a j k : Nat} (ha : a < n) (hjk : j < k) (hk : k < n) :
    slot n a j ≠ slot n a k := by
  unfold slot
  split <;> split <;> omega

structure RingBuffer (α : Type*) (n : Nat) where
  buf : Fin n → α
  entry : Nat
  inOff : Nat
  outOff : Nat
  entry_le : entry ≤ n
  out_lt : outOff < n
  in_eq : inOff = slot n outOff entry

namespace RingBuffer
variable {n : Nat}

theorem eq_of {r s : RingBuffer α n} (hb : r.buf = s.buf) (he : r.entry = s.entry)
    (hi : r.inOff = s.inOff) (ho : r.outOff = s.outOff) : r = s := by
  cases r
  cases s
  cases hb
  cases he
  cases hi
  cases ho
  rfl

theorem in_lt (r : RingBuffer α n) : r.inOff < n := by
  rw [r.in_eq]
  exact slot_lt r.out_lt r.entry_le

def full (r : RingBuffer α n) : Bool := r.entry == n

/-- the new item goes to `inOff` -/
def push (r : RingBuffer α n) (h : r.entry < n) (v : α) : RingBuffer α n where
  buf := Function.update r.buf ⟨r.inOff, r.in_lt⟩ v
  entry := r.entry + 1
  inOff := bump n r.inOff
  outOff := r.outOff
  entry_le := h
  out_lt := r.out_lt
  in_eq := by rw [r.in_eq, bump_slot r.out_lt h]

/-- the oldest item -/
def head (r : RingBuffer α n) : α := r.buf ⟨r.outOff, r.out_lt⟩

/-- the oldest item leaves -/
def pop (r : RingBuffer α n) (h : 0 < r.entry) : RingBuffer α n where
  buf := r.buf
  entry := r.entry - 1
  inOff := r.inOff
  outOff := bump n r.outOff
  entry_le := by have := r.entry_le; omega
  out_lt := bump_lt r.out_lt
  in_eq := by
    have he := r.entry_le
    rw [r.in_eq, slot_bump r.out_lt (by omega), Nat.sub_add_cancel h]

/-- the item `k` places behind the oldest one -/
def item (r : RingBuffer α n) (k : Fin r.entry) : α :=
  r.buf ⟨slot n r.outOff k, slot_lt r.out_lt (by have := r.entry_le; omega)⟩

/-- the queue that the array stands for, oldest item first -/
def contents (r : RingBuffer α n) : List α := List.ofFn r.item

theorem length_contents (r : RingBuffer α n) : r.contents.length = r.entry := List.length_ofFn

theorem contents_eq_nil (r : RingBuffer α n) : r.contents = [] ↔ r.entry = 0 := by
  rw [← List.length_eq_zero_iff, r.length_contents]

theorem getElem_contents (r : RingBuffer α n) {k : Nat} (h : k < r.contents.length) :
    r.contents[k] = r.item ⟨k, r.length_contents ▸ h⟩ :=
  List.getElem_ofFn h

theorem contents_push (r : RingBuffer α n) (h : r.entry < n) (v : α) :
    (r.push h v).contents = r.contents ++ [v] := by
  apply List.ext_getElem
  · rw [length_contents, List.length_append, length_contents]
    rfl
  · intro k h1 h2
    have hk : k < r.entry + 1 := by
      rw [length_contents] at h1
      exact h1
    rw [getElem_contents]
    by_cases hlt : k < r.entry
    · rw [List.getElem_append_left (by rw [length_contents]; exact hlt), getElem_contents]
      have hne : slot n r.outOff k ≠ r.inOff := by
        rw [r.in_eq]
        exact slot_ne r.out_lt hlt h
      exact Function.update_of_ne (fun e => hne (Fin.mk.inj e)) v r.buf
    · have e : k = r.entry := by omega
      subst e
      rw [List.getElem_append_right (Nat.le_of_eq r.length_contents), List.getElem_singleton]
      show Function.update r.buf ⟨r.inOff, r.in_lt⟩ v ⟨slot n r.outOff r.entry, _⟩ = v
      have hs : (⟨slot n r.outOff r.entry, slot_lt r.out_lt r.entry_le⟩ : Fin n)
          = ⟨r.inOff, r.in_lt⟩ := Fin.ext r.in_eq.symm
      rw [hs, Function.update_self]

theorem contents_pop (r : RingBuffer α n) (h : 0 < r.entry) :
    r.contents = r.head :: (r.pop h).contents := by
  apply List.ext_getElem
  · rw [length_contents, List.length_cons, length_contents]
    show r.entry = r.entry - 1 + 1
    omega
  · intro k h1 h2
    rw [length_contents] at h1
    have he := r.entry_le
    rw [getElem_contents]
    cases k with
    | zero =>
      show r.buf ⟨slot n r.outOff 0, _⟩ = r.buf ⟨r.outOff, _⟩
      congr 1
      exact Fin.ext (slot_zero r.out_lt)
    | succ k =>
      rw [List.getElem_cons_succ, getElem_contents]
      show r.buf ⟨slot n r.outOff (k + 1), _⟩ = r.buf ⟨slot n (bump n r.outOff) k, _⟩
      congr 1
      exact Fin.ext (slot_bump r.out_lt (by omega)).symm

end RingBuffer

import Mathlib.Data.Nat.Bitwise
import Mathlib.Logic.Function.Basic
import Mathlib.Tactic.Common

/-!
# Queues behind a word that marks the ones in use

* `IsFirst`         the lowest bit of a number that is set;
* `isFirst_byte`    the lowest bit, found in the lowest byte that is not zero;
* `Marks`           the bit `p` of the word is set exactly if the queue `p` is not empty;
* `Marks.set`, `Marks.clear`   one bit and one queue are changed together;
* `Marks.first`     the first queue in use, from the lowest bit.

Nothing here knows the program.
-/

namespace MarkedQueues

/-! ## the lowest bit -/

/-- `p` is the lowest bit of `n` that is set -/
def IsFirst (n p : Nat) : Prop := n.testBit p = true ∧ ∀ q < p, n.testBit q = false

instance decidableIsFirst (n p : Nat) : Decidable (IsFirst n p) :=
  inferInstanceAs (Decidable (_ ∧ _))

theorem IsFirst.unique {n p q : Nat} (hp : IsFirst n p) (hq : IsFirst n q) : p = q := by
  rcases Nat.lt_trichotomy p q with h | h | h
  · exact absurd hp.1 (by rw [hq.2 p h]; decide)
  · exact h
  · exact absurd hq.1 (by rw [hp.2 q h]; decide)

/-- the low bits do not matter if none of them is set -/
theorem IsFirst.shift {n p k : Nat} (h : IsFirst (n >>> k) p) (hlow : n % 2 ^ k = 0) :
    IsFirst n (p + k) := by
  constructor
  · have := h.1
    rwa [Nat.testBit_shiftRight, Nat.add_comm] at this
  · intro q hq
    rcases Nat.lt_or_ge q k with hk | hk
    · have hbit : (n % 2 ^ k).testBit q = n.testBit q := by
        rw [Nat.testBit_mod_two_pow, decide_eq_true hk, Bool.true_and]
      rw [← hbit, hlow, Nat.zero_testBit]
    · have := h.2 (q - k) (by omega)
      rwa [Nat.testBit_shiftRight, Nat.add_sub_cancel' hk] at this

/-- a bit of the lowest byte -/
theorem IsFirst.of_mod {n p k : Nat} (h : IsFirst (n % 2 ^ k) p) : IsFirst n p := by
  have hp : p < k := by
    by_contra hge
    have := h.1
    rw [Nat.testBit_mod_two_pow, decide_eq_false hge, Bool.false_and] at this
    cases this
  refine ⟨?_, fun q hq => ?_⟩
  · have := h.1
    rwa [Nat.testBit_mod_two_pow, decide_eq_true hp, Bool.true_and] at this
  · have := h.2 q hq
    rwa [Nat.testBit_mod_two_pow, decide_eq_true (Nat.lt_trans hq hp), Bool.true_and] at this

/-- **The lowest bit of a number is the lowest bit of its lowest byte that is not zero**, if
`first` knows the lowest bit of a byte. -/
theorem isFirst_byte {first : Nat → Nat} (hfirst : ∀ b < 256, b ≠ 0 → IsFirst b (first b))
    {n k : Nat} (hlow : n % 2 ^ k = 0) (hbyte : (n >>> k) % 256 ≠ 0) :
    IsFirst n (first ((n >>> k) % 256) + k) :=
  IsFirst.shift (IsFirst.of_mod (k := 8) (hfirst _ (Nat.mod_lt _ (by decide)) hbyte)) hlow

/-- the low bits, with the byte above them -/
theorem mod_byte {n k : Nat} (hlow : n % 2 ^ k = 0) (hbyte : (n >>> k) % 256 = 0) :
    n % 2 ^ (k + 8) = 0 := by
  rw [Nat.pow_add, Nat.mod_mul, hlow, ← Nat.shiftRight_eq_div_pow, hbyte]
  rfl

/-- a byte under its mask -/
theorem and_byte (n k : Nat) : n &&& 255 <<< k = ((n >>> k) % 256) <<< k := by
  apply Nat.eq_of_testBit_eq
  intro i
  rw [Nat.testBit_and, Nat.testBit_shiftLeft, Nat.testBit_shiftLeft,
    show (255 : Nat) = 2 ^ 8 - 1 from rfl, show (256 : Nat) = 2 ^ 8 from rfl,
    Nat.testBit_two_pow_sub_one, Nat.testBit_mod_two_pow, Nat.testBit_shiftRight]
  by_cases h : k ≤ i
  · rw [Nat.add_sub_cancel' h, decide_eq_true h, Bool.true_and, Bool.true_and, Bool.and_comm]
  · rw [decide_eq_false h, Bool.false_and, Bool.false_and, Bool.and_false]

/-! ## the marks of the queues -/

section
variable {α : Type*} {w : Nat}

/-- the bit `p` of the word is set exactly if the queue `p` is not empty -/
def Marks (v : BitVec w) (queue : Fin w → List α) : Prop :=
  ∀ p : Fin w, v.getLsbD p = true ↔ queue p ≠ []

variable {v : BitVec w} {queue queue' : Fin w → List α} {p : Fin w}

theorem marks_zero : Marks (0 : BitVec w) fun _ => ([] : List α) := fun p => by simp

theorem getLsbD_one_shiftLeft (p q : Fin w) :
    (1#w <<< (p : Nat)).getLsbD q = true ↔ q = p := by
  have hq := q.isLt
  rw [BitVec.getLsbD_shiftLeft, BitVec.getLsbD_one]
  simp only [hq, decide_true, Bool.true_and, Bool.and_eq_true, Bool.not_eq_true',
    decide_eq_false_iff_not, decide_eq_true_eq]
  constructor
  · rintro ⟨h1, -, h2⟩
    exact Fin.ext (by omega)
  · rintro rfl
    exact ⟨Nat.lt_irrefl _, Nat.pos_of_ne_zero (by omega), (Nat.sub_self _).symm ▸ rfl⟩

/-- the queue `p` has something in it now -/
theorem Marks.set (h : Marks v queue) (hp : queue' p ≠ []) (hne : ∀ q, q ≠ p → queue' q = queue q) :
    Marks (v ||| 1#w <<< (p : Nat)) queue' := by
  intro q
  rw [BitVec.getLsbD_or, Bool.or_eq_true, getLsbD_one_shiftLeft, h q]
  by_cases hq : q = p
  · subst hq
    exact ⟨fun _ => hp, fun _ => Or.inr rfl⟩
  · rw [hne q hq]
    exact or_iff_left hq

/-- the queue `p` is empty now -/
theorem Marks.clear (h : Marks v queue) (hp : queue' p = [])
    (hne : ∀ q, q ≠ p → queue' q = queue q) :
    Marks (v &&& ~~~(1#w <<< (p : Nat))) queue' := by
  intro q
  rw [BitVec.getLsbD_and, BitVec.getLsbD_not, decide_eq_true q.isLt, Bool.true_and,
    Bool.and_eq_true, Bool.not_eq_true', ← Bool.not_eq_true, getLsbD_one_shiftLeft, h q]
  by_cases hq : q = p
  · subst hq
    rw [hp]
    exact ⟨fun h' => absurd rfl h'.2, fun h' => absurd rfl h'⟩
  · rw [hne q hq]
    exact and_iff_left hq

/-- no queue has become empty, and none is in use that was not -/
theorem Marks.keep (h : Marks v queue) (hq : ∀ q, queue' q = [] ↔ queue q = []) : Marks v queue' :=
  fun q => (h q).trans (not_congr (hq q)).symm

/-- the bit of a queue that is empty need not be cleared -/
theorem Marks.clear_eq (h : Marks v queue) (hp : queue p = []) :
    v &&& ~~~(1#w <<< (p : Nat)) = v := by
  apply BitVec.eq_of_getLsbD_eq
  intro i hi
  have hbit := h ⟨i, hi⟩
  rw [BitVec.getLsbD_and, BitVec.getLsbD_not, decide_eq_true hi, Bool.true_and]
  cases hv : v.getLsbD i with
  | false => rfl
  | true =>
    have hne : (⟨i, hi⟩ : Fin w) ≠ p := fun e => (hbit.mp hv) (e ▸ hp)
    have : (1#w <<< (p : Nat)).getLsbD i = false := by
      rw [← Bool.not_eq_true]
      exact mt (getLsbD_one_shiftLeft p ⟨i, hi⟩).mp hne
    rw [this]
    rfl

/-- the queues determine the word -/
theorem Marks.unique {v' : BitVec w} (h : Marks v queue) (h' : Marks v' queue) : v = v' := by
  apply BitVec.eq_of_getLsbD_eq
  intro i hi
  exact Bool.eq_iff_iff.mpr ((h ⟨i, hi⟩).trans (h' ⟨i, hi⟩).symm)

theorem Marks.eq_zero_iff (h : Marks v queue) : v = 0 ↔ ∀ p, queue p = [] := by
  constructor
  · rintro rfl p
    by_contra hp
    have := (h p).mpr hp
    simp at this
  · intro he
    apply BitVec.eq_of_getLsbD_eq
    intro i hi
    have := h ⟨i, hi⟩
    rw [he] at this
    rw [show (0 : BitVec w).getLsbD i = false from BitVec.getLsbD_zero, ← Bool.not_eq_true]
    exact fun hv => this.mp hv rfl

/-- **The first queue in use.** -/
theorem Marks.first (h : Marks v queue) {n : Nat} (hn : IsFirst v.toNat n) :
    ∃ hw : n < w, queue ⟨n, hw⟩ ≠ [] ∧ ∀ q : Fin w, q.val < n → queue q = [] := by
  have hw : n < w := by
    by_contra hge
    have := hn.1
    rw [show v.toNat.testBit n = v.getLsbD n from rfl, BitVec.getLsbD_of_ge v n (by omega)] at this
    cases this
  refine ⟨hw, (h ⟨n, hw⟩).mp hn.1, fun q hq => ?_⟩
  by_contra hne
  have := (h q).mpr hne
  rw [show v.getLsbD q = v.toNat.testBit q from rfl, hn.2 q hq] at this
  cases this

end

end MarkedQueues

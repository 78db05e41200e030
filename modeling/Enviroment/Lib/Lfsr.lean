import Mathlib.Algebra.Group.Nat.Defs
import Mathlib.Data.List.Basic
import Mathlib.Data.List.GetD
import Mathlib.Data.List.OfFn
import Mathlib.Data.Nat.Prime.Basic
import Mathlib.Dynamics.PeriodicPts.Defs
import Mathlib.Logic.Function.Iterate
import Mathlib.Tactic.Common
import Mathlib.Tactic.Ring

/-!
# Linear feedback shift registers fed with bits

* `step`, `feed`, `feedAll`   one shift of a register with a polynomial, a bit, a string of bits;
* `feedAll_xor`               the register is linear in its start and in what it is fed;
* `step_injective`            nothing is lost in a step if the polynomial has its highest bit;
* `feedAll_pack`              a string no longer than the register can be put in at once;
* `parity_feedAll`            with a polynomial of odd weight the register keeps the parity;
* `feedAll_ne_zero_of_*`      which strings do not leave a register of zeros as it is;
* `toNat_iterate_mul`         many steps on numbers, to find the period of a register.

Nothing here knows the program.
-/

namespace Lfsr

/-! ## the register -/

section
variable {w : Nat} (p : BitVec w)

/-- a shift to the right; a one that falls out brings the polynomial in -/
def step (c : BitVec w) : BitVec w := if c.getLsbD 0 then (c >>> 1) ^^^ p else c >>> 1

def bit (b : Bool) : BitVec w := (BitVec.ofBool b).setWidth w

def feed (c : BitVec w) (b : Bool) : BitVec w := step p (c ^^^ bit b)

def feedAll (c : BitVec w) (bs : List Bool) : BitVec w := bs.foldl (feed p) c

@[simp] theorem feedAll_nil (c : BitVec w) : feedAll p c [] = c := rfl
@[simp] theorem feedAll_cons (c : BitVec w) (b : Bool) (bs : List Bool) :
    feedAll p c (b :: bs) = feedAll p (feed p c b) bs := rfl
theorem feedAll_append (c : BitVec w) (xs ys : List Bool) :
    feedAll p c (xs ++ ys) = feedAll p (feedAll p c xs) ys := List.foldl_append

/-! ## linearity -/

theorem bit_false : (bit false : BitVec w) = 0#w := by
  apply BitVec.eq_of_toNat_eq
  simp [bit]

theorem bit_xor (x y : Bool) : (bit (x ^^ y) : BitVec w) = bit x ^^^ bit y := by
  cases x <;> cases y <;> simp [bit_false]

theorem step_zero : step p 0#w = 0#w := by
  simp [step]

theorem step_xor (a b : BitVec w) : step p (a ^^^ b) = step p a ^^^ step p b := by
  have hc : ∀ x y z : BitVec w, x ^^^ y ^^^ z = x ^^^ z ^^^ y := fun x y z => by
    rw [BitVec.xor_assoc, BitVec.xor_comm y z, BitVec.xor_assoc]
  unfold step
  rw [BitVec.getLsbD_xor, BitVec.ushiftRight_xor_distrib]
  cases a.getLsbD 0 <;> cases b.getLsbD 0 <;>
    simp only [Bool.xor_self, Bool.xor_true, Bool.xor_false, Bool.not_false, Bool.false_eq_true,
      ↓reduceIte]
  · exact BitVec.xor_assoc _ _ _
  · exact hc _ _ _
  · rw [← BitVec.xor_assoc, hc (a >>> 1) p, BitVec.xor_assoc _ p p, BitVec.xor_self,
      BitVec.xor_zero]

theorem iterate_zero (n : Nat) : (step p)^[n] 0#w = 0#w := Function.iterate_fixed (step_zero p) n

theorem feed_xor (a b : BitVec w) (x y : Bool) :
    feed p (a ^^^ b) (x ^^ y) = feed p a x ^^^ feed p b y := by
  unfold feed
  rw [← step_xor, bit_xor]
  congr 1
  rw [BitVec.xor_assoc, BitVec.xor_assoc, ← BitVec.xor_assoc b, BitVec.xor_comm b,
    BitVec.xor_assoc]

/-- the register is linear in its start and in what it is fed -/
theorem feedAll_xor (a b : BitVec w) (xs ys : List Bool) (h : xs.length = ys.length) :
    feedAll p (a ^^^ b) (List.zipWith (· ^^ ·) xs ys) = feedAll p a xs ^^^ feedAll p b ys := by
  induction xs generalizing a b ys with
  | nil =>
    rw [List.eq_nil_of_length_eq_zero h.symm]
    rfl
  | cons x xs ih =>
    cases ys with
    | nil => cases h
    | cons y ys =>
      rw [List.zipWith_cons_cons, feedAll_cons, feed_xor]
      exact ih _ _ ys (Nat.succ.inj h)

theorem feedAll_zeros (c : BitVec w) (n : Nat) :
    feedAll p c (List.replicate n false) = (step p)^[n] c := by
  induction n generalizing c with
  | zero => rfl
  | succ n ih =>
    rw [List.replicate_succ, feedAll_cons, ih]
    unfold feed
    rw [bit_false, BitVec.xor_zero]
    rfl

/-! ## a step can be undone -/

section
variable {p} (hp : p.msb = true)
include hp

theorem step_eq_zero {c : BitVec w} (h : step p c = 0#w) : c = 0#w := by
  unfold step at h
  split at h
  next hc =>
    -- the highest bit of the polynomial is left
    have hm : (c >>> 1).msb = false := by simp
    have := congrArg BitVec.msb h
    rw [BitVec.msb_xor, hm, hp] at this
    simp at this
  next hc =>
    apply BitVec.eq_of_getLsbD_eq
    intro i hi
    cases i with
    | zero => simpa using hc
    | succ i =>
      have := congrArg (BitVec.getLsbD · i) h
      simpa [Nat.add_comm] using this

theorem step_injective : Function.Injective (step p) := by
  intro a b h
  have hz : step p (a ^^^ b) = 0#w := by rw [step_xor, h, BitVec.xor_self]
  exact BitVec.xor_eq_zero_iff.mp (step_eq_zero hp hz)

theorem iterate_eq_zero_iff {n : Nat} {c : BitVec w} : (step p)^[n] c = 0#w ↔ c = 0#w := by
  constructor
  · intro h
    exact (step_injective hp).iterate n (h.trans (iterate_zero p n).symm)
  · rintro rfl
    exact iterate_zero p n

end

/-! ## a string no longer than the register -/

/-- the string as a register, its first bit lowest -/
def pack : List Bool → BitVec w
  | [] => 0#w
  | b :: bs => pack bs <<< 1 ^^^ bit b

theorem getLsbD_bit (b : Bool) (i : Nat) :
    (bit b : BitVec w).getLsbD i = (decide (i = 0) && decide (0 < w) && b) := by
  cases i with
  | zero => simp [bit]
  | succ i => simp [bit]

theorem getLsbD_pack (bs : List Bool) (i : Nat) :
    (pack bs : BitVec w).getLsbD i = (decide (i < w) && bs.getD i false) := by
  induction bs generalizing i with
  | nil => simp [pack]
  | cons b bs ih =>
    rw [pack, BitVec.getLsbD_xor, BitVec.getLsbD_shiftLeft, getLsbD_bit]
    cases i with
    | zero => simp
    | succ i =>
      rw [show i + 1 - 1 = i by omega, ih i]
      by_cases h : i + 1 < w
      · simp [h, show i < w by omega]
      · simp [h]

/-- the bits of a register are not needed before they have come down -/
theorem step_shiftLeft {y : BitVec w} (hy : y.msb = false) : step p (y <<< 1) = y := by
  unfold step
  rw [if_neg (by simp)]
  apply BitVec.eq_of_getLsbD_eq
  intro i hi
  rw [BitVec.getLsbD_ushiftRight, BitVec.getLsbD_shiftLeft]
  by_cases h : i + 1 < w
  · simp [h, Nat.add_comm 1 i]
  · have hm : y.getLsbD i = y.msb := by
      rw [BitVec.msb_eq_getLsbD_last, show w - 1 = i by omega]
    rw [hm, hy]
    simp [Nat.add_comm 1 i, h]

theorem msb_pack {bs : List Bool} (h : bs.length < w) : (pack bs : BitVec w).msb = false := by
  rw [BitVec.msb_eq_getLsbD_last, getLsbD_pack, List.getD_eq_default _ _ (by omega),
    Bool.and_false]

/-- a string no longer than the register can be put in at once -/
theorem feedAll_pack {bs : List Bool} (h : bs.length ≤ w) (c : BitVec w) :
    feedAll p c bs = (step p)^[bs.length] (c ^^^ pack bs) := by
  induction bs generalizing c with
  | nil => simp [pack]
  | cons b bs ih =>
    rw [List.length_cons] at h
    have hstep : step p (c ^^^ (pack bs <<< 1 ^^^ bit b)) = feed p c b ^^^ pack bs := by
      rw [BitVec.xor_comm (pack bs <<< 1), ← BitVec.xor_assoc, step_xor,
        step_shiftLeft p (msb_pack (by omega))]
      rfl
    rw [feedAll_cons, ih (by omega), ← hstep]
    rfl

theorem pack_eq_zero {bs : List Bool} (h : bs.length ≤ w) (hz : (pack bs : BitVec w) = 0#w) :
    true ∉ bs := by
  intro ht
  obtain ⟨i, hi, hb⟩ := List.getElem_of_mem ht
  have h1 := getLsbD_pack (w := w) bs i
  rw [hz, List.getD_eq_getElem _ _ hi, hb] at h1
  simp at h1
  omega

/-! ## parity -/

/-- whether a string has an odd number of ones -/
def parity : List Bool → Bool := List.foldr (· ^^ ·) false

theorem parity_cons (b : Bool) (bs : List Bool) : parity (b :: bs) = (b ^^ parity bs) := rfl

theorem parity_append (xs ys : List Bool) : parity (xs ++ ys) = (parity xs ^^ parity ys) := by
  induction xs with
  | nil => simp [parity]
  | cons x xs ih => rw [List.cons_append, parity_cons, parity_cons, ih, Bool.xor_assoc]

theorem parity_zipWith (xs ys : List Bool) (h : xs.length = ys.length) :
    parity (List.zipWith (· ^^ ·) xs ys) = (parity xs ^^ parity ys) := by
  induction xs generalizing ys with
  | nil =>
    rw [List.eq_nil_of_length_eq_zero h.symm]
    rfl
  | cons x xs ih =>
    cases ys with
    | nil => cases h
    | cons y ys =>
      rw [List.zipWith_cons_cons, parity_cons, ih ys (Nat.succ.inj h), parity_cons, parity_cons]
      cases x <;> cases y <;> simp

theorem parity_count (bs : List Bool) : parity bs = decide (bs.count true % 2 = 1) := by
  induction bs with
  | nil => rfl
  | cons b bs ih =>
    rw [parity_cons, ih, List.count_cons]
    cases b with
    | false => simp
    | true =>
      by_cases h : bs.count true % 2 = 1
      · simp [h, show (bs.count true + 1) % 2 = 0 by omega]
      · simp [h, show (bs.count true + 1) % 2 = 1 by omega]

/-- the bits of a register, the lowest first -/
def bits (c : BitVec w) : List Bool := List.ofFn fun i : Fin w => c.getLsbD i

@[simp] theorem length_bits (c : BitVec w) : (bits c).length = w := List.length_ofFn

theorem getD_bits (c : BitVec w) (i : Nat) : (bits c).getD i false = c.getLsbD i := by
  by_cases h : i < w
  · rw [List.getD_eq_getElem _ _ (by rw [length_bits]; exact h)]
    exact List.getElem_ofFn _
  · rw [List.getD_eq_default _ _ (by rw [length_bits]; omega), BitVec.getLsbD_of_ge c i (by omega)]

theorem bits_xor (a b : BitVec w) : bits (a ^^^ b) = List.zipWith (· ^^ ·) (bits a) (bits b) := by
  apply List.ext_getElem
  · simp [bits]
  · intro i h1 h2
    simp [bits]

theorem parity_xor (a b : BitVec w) :
    parity (bits (a ^^^ b)) = (parity (bits a) ^^ parity (bits b)) := by
  rw [bits_xor, parity_zipWith _ _ (by rw [length_bits, length_bits])]

theorem parity_shift (c : BitVec w) :
    parity (bits (c >>> 1)) = (parity (bits c) ^^ c.getLsbD 0) := by
  cases w with
  | zero => simp [bits, parity]
  | succ w =>
    have h1 : bits c = c.getLsbD 0 :: List.ofFn fun i : Fin w => c.getLsbD (i + 1) := by
      unfold bits
      rw [List.ofFn_succ]
      rfl
    have h2 : bits (c >>> 1) = (List.ofFn fun i : Fin w => c.getLsbD (i + 1)) ++ [false] := by
      unfold bits
      rw [List.ofFn_succ']
      simp [Nat.add_comm 1]
    rw [h1, h2, parity_append, parity_cons]
    cases c.getLsbD 0 <;> simp [parity]

theorem parity_bit (hw : 0 < w) (b : Bool) : parity (bits (bit b : BitVec w)) = b := by
  cases w with
  | zero => cases hw
  | succ w =>
    unfold bits
    rw [List.ofFn_succ, parity_cons]
    have hz : (List.ofFn fun i : Fin w => (bit b : BitVec (w + 1)).getLsbD i.succ) =
        List.replicate w false := by
      rw [List.eq_replicate_iff]
      refine ⟨List.length_ofFn, fun x hx => ?_⟩
      obtain ⟨i, rfl⟩ := List.mem_ofFn.mp hx
      rw [getLsbD_bit]
      simp
    rw [hz, getLsbD_bit, parity_count, List.count_replicate]
    simp

/-- with a polynomial of odd weight a step keeps the parity -/
theorem parity_step (hp : parity (bits p) = true) (c : BitVec w) :
    parity (bits (step p c)) = parity (bits c) := by
  unfold step
  split
  next h => rw [parity_xor, parity_shift, h, hp, Bool.xor_assoc, Bool.xor_self, Bool.xor_false]
  next h =>
    rw [parity_shift, Bool.eq_false_iff.mpr h, Bool.xor_false]

theorem parity_feedAll (hw : 0 < w) (hp : parity (bits p) = true) (c : BitVec w)
    (bs : List Bool) : parity (bits (feedAll p c bs)) = (parity (bits c) ^^ parity bs) := by
  induction bs generalizing c with
  | nil => simp [parity]
  | cons b bs ih =>
    rw [feedAll_cons, ih, feed, parity_step p hp, parity_xor, parity_bit hw, parity_cons,
      Bool.xor_assoc]

theorem parity_zero : parity (bits 0#w) = false := by
  rw [parity_count]
  simp [bits, List.count_replicate]

/-! ## strings that do not leave a register of zeros as it is -/

/-- all ones stand among `n` consecutive bits -/
def Burst (n : Nat) (bs : List Bool) : Prop :=
  ∃ s, ∀ i (h : i < bs.length), bs[i] = true → s ≤ i ∧ i < s + n

/-- exactly two ones, less than `n` bits apart -/
def TwoBits (n : Nat) (bs : List Bool) : Prop :=
  ∃ i j, i < j ∧ j < i + n ∧ j < bs.length ∧
    ∀ k (h : k < bs.length), bs[k] = true ↔ k = i ∨ k = j

/-- **Strings of odd weight.** -/
theorem feedAll_ne_zero_of_odd (hw : 0 < w) (hp : parity (bits p) = true) {bs : List Bool}
    (h : bs.count true % 2 = 1) : feedAll p 0#w bs ≠ 0#w := by
  intro hz
  have hpar := parity_feedAll p hw hp 0#w bs
  rw [hz, parity_zero, parity_count, decide_eq_true h] at hpar
  cases hpar

/-- zeros before and behind a string do not matter -/
theorem feedAll_ne_zero_of_middle (hp : p.msb = true) {mid : List Bool} (i k : Nat)
    (h : feedAll p 0#w mid ≠ 0#w) :
    feedAll p 0#w (List.replicate i false ++ mid ++ List.replicate k false) ≠ 0#w := by
  rw [feedAll_append, feedAll_append, feedAll_zeros p 0#w i, iterate_zero, feedAll_zeros]
  exact fun hz => h ((iterate_eq_zero_iff hp).mp hz)

theorem eq_replicate_take {bs : List Bool} {s : Nat} (h : ∀ i (h : i < bs.length), i < s →
    bs[i] = false) : bs.take s = List.replicate (min s bs.length) false := by
  rw [List.eq_replicate_iff]
  refine ⟨List.length_take, fun b hb => ?_⟩
  obtain ⟨i, hi, rfl⟩ := List.getElem_of_mem hb
  rw [List.length_take] at hi
  rw [List.getElem_take]
  exact h i (by omega) (by omega)

theorem eq_replicate_drop {bs : List Bool} {s : Nat} (h : ∀ i (h : i < bs.length), s ≤ i →
    bs[i] = false) : bs.drop s = List.replicate (bs.length - s) false := by
  rw [List.eq_replicate_iff]
  refine ⟨List.length_drop, fun b hb => ?_⟩
  obtain ⟨i, hi, rfl⟩ := List.getElem_of_mem hb
  rw [List.length_drop] at hi
  rw [List.getElem_drop]
  exact h _ (by omega) (by omega)

/-- a string is its part from `s` to `e` if there are no ones elsewhere -/
theorem eq_middle {bs : List Bool} {s e : Nat} (hse : s ≤ e)
    (h : ∀ i (h : i < bs.length), bs[i] = true → s ≤ i ∧ i < e) :
    bs = List.replicate (min s bs.length) false ++ (bs.take e).drop s ++
      List.replicate (bs.length - e) false := by
  have hf : ∀ i (hi : i < bs.length), ¬ (s ≤ i ∧ i < e) → bs[i] = false := fun i hi hn =>
    Bool.eq_false_iff.mpr fun ht => hn (h i hi ht)
  have ht : bs.take s = (bs.take e).take s := by
    rw [List.take_take, Nat.min_eq_left hse]
  rw [← eq_replicate_drop fun i hi hs => hf i hi (by omega),
    ← eq_replicate_take fun i hi hs => hf i hi (by omega), ht, List.take_append_drop,
    List.take_append_drop]

/-- **Strings whose ones stand close together.** -/
theorem feedAll_ne_zero_of_burst (hp : p.msb = true) {bs : List Bool} (h1 : true ∈ bs)
    (h : Burst w bs) : feedAll p 0#w bs ≠ 0#w := by
  obtain ⟨s, hs⟩ := h
  have hlen : ((bs.take (s + w)).drop s).length ≤ w := by
    rw [List.length_drop, List.length_take]
    omega
  rw [eq_middle (Nat.le_add_right s w) hs] at h1 ⊢
  refine feedAll_ne_zero_of_middle p hp _ _ fun hz => ?_
  rw [feedAll_pack p hlen, BitVec.zero_xor, iterate_eq_zero_iff hp] at hz
  have hmid := pack_eq_zero hlen hz
  simp [hmid] at h1

/-- **Strings with two ones**, if the register does not come back to its lowest bit between
them. -/
theorem feedAll_ne_zero_of_two (hp : p.msb = true) {n : Nat}
    (hper : ∀ d, 0 < d → d < n → (step p)^[d] (bit true) ≠ bit true) {bs : List Bool}
    (h : TwoBits n bs) : feedAll p 0#w bs ≠ 0#w := by
  obtain ⟨i, j, hij, hjn, hj, hk⟩ := h
  have hmid : (bs.take (j + 1)).drop i =
      true :: List.replicate (j - i - 1) false ++ [true] := by
    apply List.ext_getElem
    · rw [List.length_drop, List.length_take, List.length_append, List.length_cons,
        List.length_replicate, List.length_singleton]
      omega
    · intro k h1 h2
      rw [List.length_drop, List.length_take] at h1
      rw [List.getElem_drop, List.getElem_take, List.getElem_append]
      have hb := hk (i + k) (by omega)
      cases k with
      | zero => simpa using hb.mpr (Or.inl rfl)
      | succ k =>
        split
        next hlt =>
          simp only [List.length_cons, List.length_replicate] at hlt
          rw [List.getElem_cons_succ, List.getElem_replicate, Bool.eq_false_iff]
          intro ht
          have := hb.mp ht
          omega
        next hge =>
          simp only [List.length_cons, List.length_replicate] at hge
          rw [List.getElem_singleton]
          exact hb.mpr (by omega)
  have hones : ∀ k (h : k < bs.length), bs[k] = true → i ≤ k ∧ k < j + 1 := fun k h ht => by
    have := (hk k h).mp ht
    omega
  rw [eq_middle (show i ≤ j + 1 by omega) hones]
  refine feedAll_ne_zero_of_middle p hp _ _ fun hz => ?_
  rw [hmid, List.cons_append, feedAll_cons, feedAll_append, feedAll_zeros, feedAll_cons,
    feedAll_nil] at hz
  have hz' := step_eq_zero hp hz
  rw [feed, BitVec.zero_xor, ← Function.iterate_succ_apply, BitVec.xor_eq_zero_iff] at hz'
  exact hper _ (by omega) (by omega) hz'

/-! ## the period of a register -/

/-- `k n`, with `n` evaluated first -/
def forceN {α : Type} (n : Nat) (k : Nat → α) : α :=
  match n with
  | 0 => k 0
  | n + 1 => k (n + 1)

theorem forceN_eq {α : Type} (n : Nat) (k : Nat → α) : forceN n k = k n := by
  cases n <;> rfl

/-- `n` steps on numbers, each evaluated before the next one -/
def walk (q : Nat) : Nat → Nat → Nat
  | 0, c => c
  | n + 1, c => forceN (Nat.xor (Nat.div c 2) (Nat.mul q (Nat.mod c 2))) (walk q n)

/-- `m` times `n` steps -/
def walks (q n : Nat) : Nat → Nat → Nat
  | 0, c => c
  | m + 1, c => forceN (walk q n c) (walks q n m)

theorem toNat_step (c : BitVec w) :
    (step p c).toNat = (c.toNat / 2) ^^^ (p.toNat * (c.toNat % 2)) := by
  have hb : c.getLsbD 0 = decide (c.toNat % 2 = 1) := by
    rw [BitVec.getLsbD, Nat.testBit_zero]
  have hs : (c >>> 1).toNat = c.toNat / 2 := by
    rw [BitVec.toNat_ushiftRight, Nat.shiftRight_eq_div_pow, pow_one]
  unfold step
  rw [hb]
  by_cases h : c.toNat % 2 = 1
  · rw [if_pos (decide_eq_true h), BitVec.toNat_xor, hs, h, Nat.mul_one]
  · rw [if_neg (by simpa using h), hs, show c.toNat % 2 = 0 by omega, Nat.mul_zero, Nat.xor_zero]

theorem toNat_iterate (n : Nat) (c : BitVec w) :
    ((step p)^[n] c).toNat = walk p.toNat n c.toNat := by
  induction n generalizing c with
  | zero => rfl
  | succ n ih =>
    rw [Function.iterate_succ_apply, ih, walk, forceN_eq, toNat_step]
    rfl

theorem toNat_iterate_mul (n m : Nat) (c : BitVec w) :
    ((step p)^[n * m] c).toNat = walks p.toNat n m c.toNat := by
  induction m generalizing c with
  | zero => rfl
  | succ m ih =>
    rw [Nat.mul_succ, Function.iterate_add_apply, ih, walks, forceN_eq, toNat_iterate]

end

open Function in
/-- a period that no prime factor can be taken from is the smallest one -/
theorem minimalPeriod_eq_of_prime {α : Type} {f : α → α} {x : α} {n : Nat}
    (h : IsPeriodicPt f n x)
    (hprime : ∀ q, q.Prime → q ∣ n → ¬ IsPeriodicPt f (n / q) x) : minimalPeriod f x = n := by
  obtain ⟨k, hk⟩ := h.minimalPeriod_dvd
  by_contra hne
  have hk1 : k ≠ 1 := by
    rintro rfl
    exact hne (by rw [hk, Nat.mul_one])
  obtain ⟨q, hq, m, rfl⟩ := Nat.exists_prime_and_dvd hk1
  refine hprime q hq ⟨minimalPeriod f x * m, by rw [hk]; ring⟩ ?_
  rw [isPeriodicPt_iff_minimalPeriod_dvd]
  refine ⟨m, ?_⟩
  conv_lhs => rw [hk]
  rw [Nat.mul_left_comm, Nat.mul_div_cancel_left _ hq.pos]

end Lfsr

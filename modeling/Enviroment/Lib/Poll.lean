import Mathlib.Order.Monotone.Basic
import Mathlib.Tactic.Common

/-!
# Polling

A loop `do now = read(); while (cond(now))` reads a sequence of values until one fails the
condition.  It need not end; here it gets a number of passes.

* `doWhile`               the index of the reading at which the loop ends;
* `doWhile_eq_some_iff`   it is the first one that fails the condition;
* `exists_exit`           the loop ends, at the latest at a reading that is known to fail;
* `exists_mem_window`     a counter cannot step over a window that is as long as its steps.

Nothing here knows the program.
-/

namespace Poll

variable {α : Type*} {cond : α → Bool} {val : Nat → α}

/-- at most `fuel` passes, the first one at the reading `i` -/
def doWhile (cond : α → Bool) (val : Nat → α) : Nat → Nat → Option Nat
  | 0, _ => none
  | fuel + 1, i => if cond (val i) then doWhile cond val fuel (i + 1) else some i

theorem doWhile_eq_some_iff {fuel i k : Nat} :
    doWhile cond val fuel i = some k ↔
      i ≤ k ∧ k < i + fuel ∧ cond (val k) = false ∧ ∀ j, i ≤ j → j < k → cond (val j) = true := by
  induction fuel generalizing i with
  | zero =>
    constructor
    · intro h
      cases h
    · rintro ⟨h1, h2, -⟩
      omega
  | succ fuel ih =>
    rw [doWhile]
    cases hc : cond (val i) with
    | true =>
      rw [if_pos rfl, ih]
      constructor
      · rintro ⟨h1, h2, h3, h4⟩
        refine ⟨by omega, by omega, h3, fun j hj hk => ?_⟩
        rcases Nat.eq_or_lt_of_le hj with e | hlt
        · rw [← e]
          exact hc
        · exact h4 j hlt hk
      · rintro ⟨h1, h2, h3, h4⟩
        have hne : i ≠ k := by
          intro e
          rw [← e, hc] at h3
          cases h3
        exact ⟨by omega, by omega, h3, fun j hj hk => h4 j (by omega) hk⟩
    | false =>
      rw [if_neg (by decide)]
      constructor
      · intro h
        have e : i = k := Option.some.inj h
        subst e
        exact ⟨Nat.le_refl i, by omega, hc, fun j h1 h2 => absurd h2 (by omega)⟩
      · rintro ⟨h1, -, -, h4⟩
        rcases Nat.eq_or_lt_of_le h1 with e | hlt
        · rw [e]
        · have ht := h4 i (Nat.le_refl i) hlt
          rw [hc] at ht
          cases ht

/-- the loop ends no later than at a reading that fails the condition, with every number of passes
that reaches that far -/
theorem exists_exit (cond : α → Bool) (val : Nat → α) {i k : Nat} (hik : i ≤ k)
    (hk : cond (val k) = false) :
    ∃ m, m ≤ k ∧ ∀ fuel, m < i + fuel → doWhile cond val fuel i = some m := by
  induction k using Nat.strongRecOn with
  | ind k ih =>
    by_cases hfirst : ∃ j, i ≤ j ∧ j < k ∧ cond (val j) = false
    · obtain ⟨j, hij, hjk, hj⟩ := hfirst
      obtain ⟨m, hm, hexit⟩ := ih j hjk hij hj
      exact ⟨m, by omega, hexit⟩
    · refine ⟨k, Nat.le_refl k, fun fuel hfuel => ?_⟩
      rw [doWhile_eq_some_iff]
      refine ⟨hik, hfuel, hk, fun j hij hjk => ?_⟩
      cases hj : cond (val j) with
      | true => rfl
      | false => exact absurd ⟨j, hij, hjk, hj⟩ hfirst

/-- what starts below `lo`, grows without end and by at most `g` at a time comes by a value in
`[lo, lo + g)` -/
theorem exists_mem_window {e : Nat → Nat} (hmono : StrictMono e) {g lo : Nat}
    (hgap : ∀ i, e (i + 1) ≤ e i + g) (h0 : e 0 < lo) :
    ∃ i, lo ≤ e (i + 1) ∧ e (i + 1) < lo + g := by
  have hlate : ∃ k, lo ≤ e k := by
    refine ⟨lo, ?_⟩
    have hle : ∀ n, n ≤ e n := by
      intro n
      induction n with
      | zero => exact Nat.zero_le _
      | succ n ih => exact Nat.lt_of_le_of_lt ih (hmono (Nat.lt_succ_self n))
    exact hle lo
  obtain ⟨k, hk⟩ := hlate
  -- the first value that is not below `lo`
  induction k with
  | zero => omega
  | succ k ih =>
    by_cases hlt : e k < lo
    · have hg := hgap k
      exact ⟨k, hk, by omega⟩
    · exact ih (by omega)

end Poll

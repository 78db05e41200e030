import Mathlib.Data.List.Basic
import Mathlib.Data.List.GetD
import Mathlib.Logic.Function.Basic
import Mathlib.Tactic.Common

/-!
# Memories written cell by cell, and bitmaps

* `fill`              a memory after some cells were given the values of a function;
* `foldlM_fill`       a loop of partial stores that all succeed;
* `blit`, `blitAll`   a glyph, and glyphs side by side, in a bitmap without bounds;
* `blitAll_inside`, `blitAll_of_outside`   what a pixel shows after a row of glyphs.

Nothing here knows the program.
-/

namespace Bitmap

/-! ## memories -/

section
variable {α β γ : Type*}

open Classical in
/-- the cells with `S` have the values of `F`, the others what they had -/
noncomputable def fill (F : α → β) (S : α → Prop) (d : α → β) : α → β :=
  fun p => if S p then F p else d p

variable {F : α → β} {S T : α → Prop} {d : α → β}

theorem fill_of {p : α} (h : S p) : fill F S d p = F p := if_pos h
theorem fill_of_not {p : α} (h : ¬ S p) : fill F S d p = d p := if_neg h

theorem fill_none (h : ∀ p, ¬ S p) : fill F S d = d := by
  funext p
  exact fill_of_not (h p)

theorem fill_fill : fill F T (fill F S d) = fill F (fun p => S p ∨ T p) d := by
  funext p
  by_cases ht : T p
  · rw [fill_of ht]
    exact (fill_of (S := fun p => S p ∨ T p) (Or.inr ht)).symm
  · rw [fill_of_not ht]
    by_cases hs : S p
    · rw [fill_of hs]
      exact (fill_of (S := fun p => S p ∨ T p) (Or.inl hs)).symm
    · rw [fill_of_not hs]
      exact (fill_of_not (S := fun p => S p ∨ T p) (not_or.mpr ⟨hs, ht⟩)).symm

theorem fill_update [DecidableEq α] (F : α → β) (p : α) (d : α → β) :
    Function.update d p (F p) = fill F (fun q => q = p) d := by
  funext q
  by_cases h : q = p
  · subst h
    rw [Function.update_self]
    exact (fill_of rfl).symm
  · rw [Function.update_of_ne h]
    exact (fill_of_not (S := fun q => q = p) h).symm

theorem foldlM_fill (loc : γ → α → Prop) (store : (α → β) → γ → Option (α → β)) (cs : List γ)
    (h : ∀ c ∈ cs, ∀ d, store d c = some (fill F (loc c) d)) (d : α → β) :
    cs.foldlM store d = some (fill F (fun p => ∃ c ∈ cs, loc c p) d) := by
  induction cs generalizing d with
  | nil =>
    rw [fill_none (by simp)]
    rfl
  | cons c cs ih =>
    rw [List.foldlM_cons, h c List.mem_cons_self]
    refine (ih (fun c' hc' => h c' (List.mem_cons_of_mem c hc')) _).trans ?_
    rw [fill_fill]
    simp only [List.mem_cons, exists_eq_or_imp]

theorem foldlM_none {store : β → γ → Option β} {cs : List γ} (hne : cs ≠ [])
    (h : ∀ d c, store d c = none) (d : β) : cs.foldlM store d = none := by
  cases cs with
  | nil => exact absurd rfl hne
  | cons c cs =>
    rw [List.foldlM_cons, h]
    rfl

end

/-! ## bitmaps -/

section
variable {β : Type*}

/-- a glyph of `h` rows in the column `col`, from the row `top` down -/
def blit (glyph : Nat → β) (h col top : Nat) (bm : Nat → Nat → β) : Nat → Nat → β :=
  fun c r => if c = col ∧ top ≤ r ∧ r < top + h then glyph (r - top) else bm c r

/-- glyphs side by side, the first one in the column `col` -/
def blitAll (h top : Nat) : List (Nat → β) → Nat → (Nat → Nat → β) → Nat → Nat → β
  | [], _, bm => bm
  | glyph :: gs, col, bm => blitAll h top gs (col + 1) (blit glyph h col top bm)

theorem blitAll_of_outside {h top : Nat} {gs : List (Nat → β)} {col : Nat}
    {bm : Nat → Nat → β} {c r : Nat}
    (hout : ¬ (top ≤ r ∧ r < top + h ∧ col ≤ c ∧ c < col + gs.length)) :
    blitAll h top gs col bm c r = bm c r := by
  induction gs generalizing col bm with
  | nil => rfl
  | cons glyph gs ih =>
    rw [List.length_cons] at hout
    rw [blitAll, ih (by omega)]
    exact if_neg (by omega)

theorem blitAll_inside {h top : Nat} {gs : List (Nat → β)} {col k : Nat} {bm : Nat → Nat → β}
    {r : Nat} (hk : k < gs.length) (htop : top ≤ r) (hr : r < top + h) :
    blitAll h top gs col bm (col + k) r = gs[k] (r - top) := by
  induction gs generalizing col k bm with
  | nil => cases hk
  | cons glyph gs ih =>
    rw [blitAll]
    cases k with
    | zero =>
      rw [blitAll_of_outside (by omega)]
      exact if_pos ⟨rfl, htop, hr⟩
    | succ k =>
      rw [List.length_cons] at hk
      rw [show col + (k + 1) = col + 1 + k by omega, ih (by omega)]
      rfl

end

end Bitmap

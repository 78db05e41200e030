import Enviroment.Led.Draw
import Enviroment.Lib.Bitmap

/-!
# The drawing functions as blits

`LED_DATA` seen as a bitmap: `cellOf C R` is the byte of the row `R` in the column `C`.

* `colOf`, `rowOf`        the column and the row of a byte of `LED_DATA`;
* `glyphLoops_fill`       the loops of the drawing functions visit the rows of a glyph, once each;
* `Shows`                 `LED_DATA` agrees with a bitmap without bounds;
* `ledShowChar_blit`      a character is drawn by a blit that is clipped at the lower edge;
* `ledShowString_blit`    a string by blits in the columns from `x` on;
* `shows_showChese`       a Chinese character by the blits of its halves.
-/

namespace ENV

open Bitmap

/-! ## the layout of `LED_DATA` -/

def cellOf (C : Fin 12) (R : Fin 48) : Fin 12 × Fin 48 :=
  (⟨R % 4 + 4 * (R / 16), by omega⟩, ⟨4 * C + 3 - (R % 16) / 4, by omega⟩)

def colOf (p : Fin 12 × Fin 48) : Nat := p.2 / 4
def rowOf (p : Fin 12 × Fin 48) : Nat := 16 * (p.1 / 4) + 4 * (3 - p.2 % 4) + p.1 % 4

theorem colOf_lt (p : Fin 12 × Fin 48) : colOf p < 12 := by
  unfold colOf
  omega

theorem rowOf_lt (p : Fin 12 × Fin 48) : rowOf p < 48 := by
  unfold rowOf
  omega

theorem colOf_cellOf (C : Fin 12) (R : Fin 48) : colOf (cellOf C R) = C := by
  unfold colOf cellOf
  show (4 * C.val + 3 - (R.val % 16) / 4) / 4 = C.val
  omega

theorem rowOf_cellOf (C : Fin 12) (R : Fin 48) : rowOf (cellOf C R) = R := by
  unfold rowOf cellOf
  show 16 * ((R.val % 4 + 4 * (R.val / 16)) / 4) +
    4 * (3 - (4 * C.val + 3 - (R.val % 16) / 4) % 4) + (R.val % 4 + 4 * (R.val / 16)) % 4 = R.val
  omega

theorem cellOf_colOf_rowOf (p : Fin 12 × Fin 48) :
    cellOf ⟨colOf p, colOf_lt p⟩ ⟨rowOf p, rowOf_lt p⟩ = p := by
  obtain ⟨r, c⟩ := p
  apply Prod.ext
  · apply Fin.ext
    show rowOf (r, c) % 4 + 4 * (rowOf (r, c) / 16) = r.val
    unfold rowOf
    show (16 * (r.val / 4) + 4 * (3 - c.val % 4) + r.val % 4) % 4 +
      4 * ((16 * (r.val / 4) + 4 * (3 - c.val % 4) + r.val % 4) / 16) = r.val
    omega
  · apply Fin.ext
    show 4 * colOf (r, c) + 3 - (rowOf (r, c) % 16) / 4 = c.val
    unfold rowOf colOf
    show 4 * (c.val / 4) + 3 -
      ((16 * (r.val / 4) + 4 * (3 - c.val % 4) + r.val % 4) % 16) / 4 = c.val
    omega

/-! ## the loops -/

theorem mem_loopPairs {i e s : Nat} {q : Nat × Nat} :
    q ∈ loopPairs i e s ↔ i ≤ q.1 ∧ q.1 < e ∧ s ≤ q.2 ∧ q.2 < s + 4 := by
  unfold loopPairs
  obtain ⟨a, b⟩ := q
  rw [List.pair_mem_product, List.mem_range'_1, List.mem_range'_1]
  omega

def fontSize (size : Nat) : Nat := if size = 12 then 12 else 16

/-- the row of the byte `LED_DATA[r][c]` -/
def rowAt (r c : Nat) : Nat := 16 * (r / 4) + 4 * (3 - c % 4) + r % 4

theorem fontSize_cases (size : Nat) :
    size = 12 ∧ fontSize size = 12 ∨ size ≠ 12 ∧ fontSize size = 16 := by
  unfold fontSize
  split
  next h => exact Or.inl ⟨h, rfl⟩
  next h => exact Or.inr ⟨h, rfl⟩

section
variable {F : Fin 12 × Fin 48 → Byte} {loc : Nat → Nat → Fin 12 × Fin 48 → Prop}
  {put : LedData → Nat → Nat → Int → Option LedData} {x y size : Nat}

theorem exists_loopPairs {i e s t : Nat} (he : e ≤ 4) (hs : s = 0 ∨ s = 4)
    {p : Fin 12 × Fin 48} :
    (∃ ij ∈ loopPairs i e s, loc (ij.2 + 4 * t) (ij.1 + 4 * x) p) ↔
      ∃ r c, r / 4 = t + s / 4 ∧ c / 4 = x ∧ i ≤ c % 4 ∧ c % 4 < e ∧ loc r c p := by
  constructor
  · rintro ⟨ij, hij, hloc⟩
    rw [mem_loopPairs] at hij
    exact ⟨_, _, by omega, by omega, by omega, by omega, hloc⟩
  · rintro ⟨r, c, hr, hc, h1, h2, hloc⟩
    have er : r % 4 + s + 4 * t = r := by omega
    have ec : c % 4 + 4 * x = c := by omega
    refine ⟨(c % 4, r % 4 + s), mem_loopPairs.mpr ⟨h1, h2, ?_, ?_⟩, ?_⟩
    · exact Nat.le_add_left _ _
    · show r % 4 + s < s + 4
      omega
    · show loc (r % 4 + s + 4 * t) (c % 4 + 4 * x) p
      rw [er, ec]
      exact hloc

/-- one pair of loops, from `i` to `e` and from `s` on -/
theorem loopPairs_fill (hput : ∀ d r c k, r < 12 → c / 4 = x → k < fontSize size →
      rowAt r c = 4 * y + k → put d r c k = some (fill F (loc r c) d)) {i e s : Nat} {b : Int}
    (hy : y ≤ 11) (he : e ≤ 4) (he' : e + y % 4 ≤ 4 + s) (hs : s = 0 ∨ s = 4 ∧ y / 4 < 2)
    (hb : b = 12 + 3 * s) (hi : 15 + 4 * s < fontSize size + 4 * i + 4 * (y % 4)) (d : LedData) :
    (loopPairs i e s).foldlM (fun d ij =>
        put d (ij.2 + 4 * (y / 4)) (ij.1 + 4 * x) (b + ij.2 - 4 * ij.1 - 4 * (y % 4 : Nat))) d =
      some (fill F (fun p => ∃ r c, r / 4 = y / 4 + s / 4 ∧ c / 4 = x ∧ i ≤ c % 4 ∧ c % 4 < e ∧
        loc r c p) d) := by
  simp only [← exists_loopPairs he (show s = 0 ∨ s = 4 by omega)]
  refine foldlM_fill _ _ _ (fun ij hij d => ?_) d
  rw [mem_loopPairs] at hij
  have h0 : 0 ≤ b + ij.2 - 4 * ij.1 - 4 * (y % 4 : Nat) := by omega
  obtain ⟨k, hk⟩ := Int.eq_ofNat_of_zero_le h0
  rw [hk]
  apply hput
  · omega
  · omega
  · omega
  · unfold rowAt
    omega

/-- the loops visit the bytes of the rows of a glyph that are on the display, and no others -/
theorem glyphLoops_fill (hput : ∀ d r c k, r < 12 → c / 4 = x → k < fontSize size →
      rowAt r c = 4 * y + k → put d r c k = some (fill F (loc r c) d)) (hy : y ≤ 11)
    (d : LedData) :
    glyphLoops put x y size d = some (fill F (fun p => ∃ r c, r < 12 ∧ c / 4 = x ∧
      4 * y ≤ rowAt r c ∧ rowAt r c < 4 * y + fontSize size ∧ loc r c p) d) := by
  have hsize := fontSize_cases size
  have hupper := loopPairs_fill (i := if size = 12 ∧ y % 4 = 0 then 1 else 0) (e := 4 - y % 4)
    (s := 0) (b := 12) hput hy (by omega) (by omega) (Or.inl rfl) rfl (by split <;> omega)
  unfold glyphLoops
  simp only
  rw [hupper, Option.bind_some]
  have hexists : ∀ {P Q : Nat → Nat → Prop} {p : Fin 12 × Fin 48}, (∀ r c, P r c ↔ Q r c) →
      ((∃ r c, P r c ∧ loc r c p) ↔ ∃ r c, Q r c ∧ loc r c p) := fun h =>
    exists_congr fun r => exists_congr fun c => and_congr_left fun _ => h r c
  split
  next ht =>
    -- the rows below the upper half are not on the display
    congr 2
    funext p
    simp only [← and_assoc]
    refine propext (hexists fun r c => ?_)
    unfold rowAt
    split <;> omega
  next ht =>
    have hlower := loopPairs_fill (i := if size = 12 then 5 - y % 4 else 4 - y % 4) (e := 4)
      (s := 4) (b := 24) hput hy (by omega) (by omega) (Or.inr ⟨rfl, by omega⟩) rfl
      (by split <;> omega)
    rw [hlower, fill_fill]
    congr 2
    funext p
    simp only [← and_assoc, ← exists_or, ← or_and_right]
    refine propext (hexists fun r c => ?_)
    unfold rowAt
    split <;> split <;> omega

end

/-! ## fonts -/

theorem fontAt_eq {font : List (List Byte)} {n ch k : Nat} (hn : ∀ glyph ∈ font, glyph.length = n)
    (hch : ch < font.length) (hk : k < n) :
    fontAt font ch k = some ((font.getD ch []).getD k 0) := by
  have hlen : font[ch].length = n := hn _ (List.getElem_mem hch)
  unfold fontAt
  rw [if_pos (Int.natCast_nonneg k), List.getElem?_eq_getElem hch, Option.bind_some,
    Int.toNat_natCast, List.getElem?_eq_getElem (by omega), List.getD_eq_getElem _ _ hch,
    List.getD_eq_getElem _ _ (by omega)]

theorem length_asciiFont (size : Nat) : (asciiFont size).length = 95 := by
  unfold asciiFont
  split <;> rfl

theorem length_ascii_glyph (size : Nat) :
    ∀ glyph ∈ asciiFont size, glyph.length = fontSize size := by
  unfold asciiFont fontSize
  split
  · decide +kernel
  · decide +kernel

theorem printable_index {ch : Byte} (h : printable ch) : (ch - 0x20).toNat < 95 := by
  obtain ⟨h1, h2⟩ := Bool.and_eq_true_iff.mp h
  have h1' : ch.toNat ≤ 126 := of_decide_eq_true h1
  have h2' : 32 ≤ ch.toNat := of_decide_eq_true h2
  have hsub : (ch - 0x20).toNat = ch.toNat - 32 := BitVec.toNat_sub_of_le h2'
  omega

/-- the row `g` of a character -/
def asciiRow (size : Nat) (ch : Byte) (g : Nat) : Byte :=
  ((asciiFont size).getD (ch - 0x20).toNat []).getD g 0

theorem fontAt_ascii {size : Nat} {ch : Byte} (h : printable ch) {g : Nat}
    (hg : g < fontSize size) :
    fontAt (asciiFont size) (ch - 0x20).toNat g = some (asciiRow size ch g) :=
  fontAt_eq (length_ascii_glyph size) (by rw [length_asciiFont]; exact printable_index h) hg

/-! ## a character -/

theorem store_fill {F : Fin 12 × Fin 48 → Byte} {r c : Nat} (hr : r < 12) (hc : c < 48) {v : Byte}
    (hv : v = F (⟨r, hr⟩, ⟨c, hc⟩)) (d : LedData) :
    d.store r c (some v) = some (fill F (fun p => p.1.val = r ∧ p.2.val = c) d) := by
  unfold LedData.store
  rw [dif_pos ⟨hr, hc⟩, Option.map_some, hv, fill_update]
  congr 2
  funext p
  rw [Prod.ext_iff, Fin.ext_iff, Fin.ext_iff]

/-- the pixels of a glyph of `h` rows at `x` and `y` -/
def InGlyph (x y h : Nat) (p : Fin 12 × Fin 48) : Prop :=
  colOf p = x ∧ 4 * y ≤ rowOf p ∧ rowOf p < 4 * y + h

theorem ledShowChar_fill {x y : Nat} (hx : x ≤ 11) (hy : y ≤ 11) (size : Nat) {ch : Byte}
    (hch : printable ch) (d : LedData) :
    ledShowChar x y size ch d = some (fill (fun p => asciiRow size ch (rowOf p - 4 * y))
      (InGlyph x y (fontSize size)) d) := by
  have hput : ∀ (d : LedData) (r c k : Nat), r < 12 → c / 4 = x → k < fontSize size →
      rowAt r c = 4 * y + k → putChar size (ch - 0x20) d r c k =
        some (fill (fun p => asciiRow size ch (rowOf p - 4 * y))
          (fun p => p.1.val = r ∧ p.2.val = c) d) := by
    intro d r c k hr hc hk hrow
    unfold putChar
    rw [fontAt_ascii hch hk]
    refine store_fill hr (by omega) (congrArg (asciiRow size ch) ?_) d
    show k = rowAt r c - 4 * y
    omega
  unfold ledShowChar
  simp only
  rw [glyphLoops_fill hput hy]
  congr 2
  funext p
  apply propext
  constructor
  · rintro ⟨r, c, hr, hc, h1, h2, rfl, rfl⟩
    exact ⟨hc, h1, h2⟩
  · rintro ⟨hc, h1, h2⟩
    exact ⟨p.1, p.2, p.1.isLt, hc, h1, h2, rfl, rfl⟩

/-- **A character is drawn by an exact, clipped blit.**  All indices are in bounds, the rows of the
glyph that are on the display are in their places, and no other byte is changed. -/
theorem ledShowChar_blit {x y : Nat} (hx : x ≤ 11) (hy : y ≤ 11) (size : Nat) {ch : Byte}
    (hch : printable ch) (d : LedData) :
    ∃ d', ledShowChar x y size ch d = some d' ∧
      (∀ g (_ : g < fontSize size) (hR : 4 * y + g < 48),
        fontAt (asciiFont size) (ch - 0x20).toNat g =
          some (d' (cellOf ⟨x, by omega⟩ ⟨4 * y + g, hR⟩))) ∧
      ∀ p, (∀ g (_ : g < fontSize size) (hR : 4 * y + g < 48),
        p ≠ cellOf ⟨x, by omega⟩ ⟨4 * y + g, hR⟩) → d' p = d p := by
  refine ⟨_, ledShowChar_fill hx hy size hch d, fun g hg hR => ?_, fun p hp => ?_⟩
  · have hcol := colOf_cellOf ⟨x, by omega⟩ ⟨4 * y + g, hR⟩
    have hrow := rowOf_cellOf ⟨x, by omega⟩ ⟨4 * y + g, hR⟩
    simp only at hcol hrow
    rw [fill_of ⟨hcol, by omega, by omega⟩, hrow, Nat.add_sub_cancel_left, fontAt_ascii hch hg]
  · apply fill_of_not
    rintro ⟨hcol, h1, h2⟩
    have hlt := rowOf_lt p
    refine hp (rowOf p - 4 * y) (by omega) (by omega) ?_
    conv_lhs => rw [← cellOf_colOf_rowOf p]
    congr 1
    · exact Fin.ext hcol
    · apply Fin.ext
      show rowOf p = 4 * y + (rowOf p - 4 * y)
      omega

/-- a vertical bar at the left edge, half of it below the display -/
theorem ledShowChar_blit_bar : ∃ d', ledShowChar 0 11 16 0x7c ledClear = some d' ∧
    (∀ g (_ : g < fontSize 16) (hR : 4 * 11 + g < 48),
      fontAt (asciiFont 16) (0x7c - 0x20 : Byte).toNat g =
        some (d' (cellOf ⟨0, by decide⟩ ⟨4 * 11 + g, hR⟩))) ∧
    ∀ p, (∀ g (_ : g < fontSize 16) (hR : 4 * 11 + g < 48),
      p ≠ cellOf ⟨0, by decide⟩ ⟨4 * 11 + g, hR⟩) → d' p = ledClear p :=
  ledShowChar_blit (by decide) (by decide) 16 (by decide) ledClear

/-! ## bitmaps -/

/-- the display agrees with a bitmap without bounds -/
def Shows (d : LedData) (bm : Nat → Nat → Byte) : Prop := ∀ C R, d (cellOf C R) = bm C R

/-- what the display shows, on a black background -/
def picture (d : LedData) (c r : Nat) : Byte :=
  if hc : c < 12 then if hr : r < 48 then d (cellOf ⟨c, hc⟩ ⟨r, hr⟩) else 0 else 0

theorem shows_picture (d : LedData) : Shows d (picture d) := by
  intro C R
  unfold picture
  rw [dif_pos C.isLt, dif_pos R.isLt]

theorem Shows.glyph {d : LedData} {bm : Nat → Nat → Byte} (hs : Shows d bm) (glyph : Nat → Byte)
    (x y h : Nat) :
    Shows (fill (fun p => glyph (rowOf p - 4 * y)) (InGlyph x y h) d)
      (blit glyph h x (4 * y) bm) := by
  intro C R
  have hin : InGlyph x y h (cellOf C R) ↔ C.val = x ∧ 4 * y ≤ R.val ∧ R.val < 4 * y + h := by
    unfold InGlyph
    rw [colOf_cellOf, rowOf_cellOf]
  unfold blit
  by_cases hc : C.val = x ∧ 4 * y ≤ R.val ∧ R.val < 4 * y + h
  · rw [fill_of (hin.mpr hc), if_pos hc, rowOf_cellOf]
  · rw [fill_of_not (fun hx => hc (hin.mp hx)), if_neg hc]
    exact hs C R

theorem shows_showChar {x y : Nat} (hx : x ≤ 11) (hy : y ≤ 11) (size : Nat) {ch : Byte}
    (hch : printable ch) {d : LedData} {bm : Nat → Nat → Byte} (hs : Shows d bm) :
    ∃ d', ledShowChar x y size ch d = some d' ∧
      Shows d' (blit (asciiRow size ch) (fontSize size) x (4 * y) bm) :=
  ⟨_, ledShowChar_fill hx hy size hch d, hs.glyph _ x y _⟩

/-! ## a string -/

/-- the characters from the index `p` on that fit behind the column `x` and are printable -/
def drawn (s : Nat → Byte) (p x : Nat) : List Byte :=
  ((List.range' p (12 - x)).map s).takeWhile printable

theorem drawn_stop {s : Nat → Byte} {p : Nat} (h : ¬ printable (s p)) (x : Nat) :
    drawn s p x = [] := by
  unfold drawn
  cases 12 - x with
  | zero => rfl
  | succ k => rw [List.range'_succ, List.map_cons, List.takeWhile_cons_of_neg h]

theorem drawn_cons {s : Nat → Byte} {p x : Nat} (h : printable (s p)) (hx : x ≤ 11) :
    drawn s p x = s p :: drawn s (p + 1) (x + 1) := by
  unfold drawn
  rw [show 12 - x = 12 - (x + 1) + 1 by omega, List.range'_succ, List.map_cons,
    List.takeWhile_cons_of_pos h]

/-- a string of which `n` characters can be read -/
def readable (s : Nat → Byte) (n : Nat) (i : Nat) : Option Byte :=
  if i < n then some (s i) else none

/-- the loop over a string, from the index `p` and the column `x` on -/
theorem shows_showString {y : Nat} (hy : y ≤ 11) (size : Nat) (s : Nat → Byte) (n : Nat)
    {x : Nat} (hx : x ≤ 11) (p : Nat)
    (hn : p + (12 - x) ≤ n ∨ ∃ i, p ≤ i ∧ i < n ∧ ¬ printable (s i)) {d : LedData}
    {bm : Nat → Nat → Byte} (hs : Shows d bm) :
    ∃ d', ledShowString x y size (readable s n) p d = some d' ∧
      Shows d' (blitAll (fontSize size) (4 * y) ((drawn s p x).map (asciiRow size)) x bm) := by
  induction hk : 11 - x using Nat.strongRecOn generalizing x p d bm with
  | ind k ih =>
    have hp : p < n := by
      rcases hn with h | ⟨i, h1, h2, -⟩
      · omega
      · omega
    rw [ledShowString, readable, if_pos hp, Option.bind_some]
    by_cases hch : printable (s p)
    · obtain ⟨d1, hd, hs1⟩ := shows_showChar hx hy size hch hs
      rw [if_pos hch, hd, Option.bind_some, drawn_cons hch hx]
      by_cases hlast : x + 1 > 11
      · -- the last column
        have hnil : drawn s (p + 1) (x + 1) = [] := by
          unfold drawn
          rw [show 12 - (x + 1) = 0 by omega]
          rfl
        rw [hnil]
        exact ⟨d1, if_pos hlast, hs1⟩
      · have hn' : p + 1 + (12 - (x + 1)) ≤ n ∨ ∃ i, p + 1 ≤ i ∧ i < n ∧ ¬ printable (s i) := by
          rcases hn with h | ⟨i, h1, h2, h3⟩
          · exact Or.inl (by omega)
          · refine Or.inr ⟨i, ?_, h2, h3⟩
            rcases Nat.lt_or_ge p i with hlt | hge
            · exact hlt
            · have e : i = p := by omega
              rw [e] at h3
              exact absurd hch h3
        have hlt : 11 - (x + 1) < k := by
          clear hn hn'
          omega
        rw [if_neg hlast]
        exact ih _ hlt (Nat.le_of_not_lt hlast) (p + 1) hn' hs1 rfl
    · rw [if_neg hch, drawn_stop hch]
      exact ⟨d, rfl, hs⟩

theorem length_drawn_le (s : Nat → Byte) (p x : Nat) : (drawn s p x).length ≤ 12 - x := by
  unfold drawn
  have h := (List.takeWhile_prefix printable (l := (List.range' p (12 - x)).map s)).length_le
  rwa [List.length_map, List.length_range'] at h

/-- **A string is drawn by the blits of its characters**, up to the first one that is not printable
and up to the right edge.  Of a string of which `n` characters can be read, no other is read if it
ends among them, or if they reach to the right edge. -/
theorem ledShowString_blit {x y : Nat} (hx : x ≤ 11) (hy : y ≤ 11) (size : Nat) (s : Nat → Byte)
    (n : Nat) (hn : 12 - x ≤ n ∨ ∃ i < n, ¬ printable (s i)) (d : LedData) :
    ∃ d', ledShowString x y size (readable s n) 0 d = some d' ∧
      Shows d' (blitAll (fontSize size) (4 * y)
        ((((List.range (12 - x)).map s).takeWhile printable).map (asciiRow size)) x (picture d)) ∧
      ∀ C R, ¬ (x ≤ C.val ∧ C.val ≤ 11 ∧ 4 * y ≤ R.val ∧ R.val < 4 * y + fontSize size) →
        d' (cellOf C R) = d (cellOf C R) := by
  have hn' : 0 + (12 - x) ≤ n ∨ ∃ i, 0 ≤ i ∧ i < n ∧ ¬ printable (s i) := by
    rcases hn with h | ⟨i, h1, h2⟩
    · exact Or.inl (by omega)
    · exact Or.inr ⟨i, Nat.zero_le i, h1, h2⟩
  obtain ⟨d', hd, hs⟩ := shows_showString hy size s n hx 0 hn' (shows_picture d)
  refine ⟨d', hd, ?_, fun C R hout => ?_⟩
  · rw [List.range_eq_range']
    exact hs
  · have hlen := length_drawn_le s 0 x
    have hC := C.isLt
    rw [hs C R, shows_picture d C R]
    apply blitAll_of_outside
    rw [List.length_map]
    omega

/-- the first content of `pm2_5`, which has no terminator -/
def pmPlaceholder (i : Nat) : Byte := (bytes " 2.5:--ug/m3").getD i 0

theorem ledShowString_blit_pm :
    ∃ d', ledShowString 0 6 12 (readable pmPlaceholder 12) 0 ledClear = some d' ∧
      Shows d' (blitAll (fontSize 12) (4 * 6)
        ((((List.range (12 - 0)).map pmPlaceholder).takeWhile printable).map (asciiRow 12)) 0
          (picture ledClear)) ∧
      ∀ C R, ¬ (0 ≤ C.val ∧ C.val ≤ 11 ∧ 4 * 6 ≤ R.val ∧ R.val < 4 * 6 + fontSize 12) →
        d' (cellOf C R) = ledClear (cellOf C R) :=
  ledShowString_blit (by decide) (by decide) 12 pmPlaceholder 12 (Or.inl (by decide)) ledClear

/-! ## Chinese characters -/

/-- the row `g` of a glyph of the Chinese font -/
def cheseRow (size index g : Nat) : Byte := ((cheseFont size).getD index []).getD g 0

theorem length_chese_glyph (size : Nat) :
    ∀ glyph ∈ cheseFont size, glyph.length = fontSize size := by
  unfold cheseFont fontSize
  split
  · decide +kernel
  · decide +kernel

/-- what a byte of `LED_DATA` gets of the two halves in the columns from `x` on -/
def cheseCell (size index x y : Nat) (q : Fin 12 × Fin 48) : Byte :=
  cheseRow size (index + (colOf q - x)) (rowOf q - 4 * y)

section
variable {x y size index : Nat}

theorem putChese_fill (hx : x ≤ 10) (hindex : index + 1 < (cheseFont size).length) (d : LedData)
    (r c k : Nat) (hr : r < 12) (hc : c / 4 = x) (hk : k < fontSize size)
    (hrow : rowAt r c = 4 * y + k) : putChese size index d r c k =
      some (fill (cheseCell size index x y)
        (fun q => q.1.val = r ∧ q.2.val = c ∨ q.1.val = r ∧ q.2.val = c + 4) d) := by
  have hleft : cheseRow size index k = cheseCell size index x y (⟨r, hr⟩, ⟨c, by omega⟩) := by
    show _ = cheseRow size (index + (c / 4 - x)) (rowAt r c - 4 * y)
    rw [hc, hrow, Nat.sub_self, Nat.add_sub_cancel_left]
    rfl
  have hright : cheseRow size (index + 1) k =
      cheseCell size index x y (⟨r, hr⟩, ⟨c + 4, by omega⟩) := by
    show _ = cheseRow size (index + ((c + 4) / 4 - x)) (rowAt r (c + 4) - 4 * y)
    have e1 : (c + 4) / 4 - x = 1 := by omega
    have e2 : rowAt r (c + 4) - 4 * y = k := by
      unfold rowAt at hrow ⊢
      omega
    rw [e1, e2]
  unfold putChese
  rw [fontAt_eq (length_chese_glyph size) (by omega) hk,
    fontAt_eq (length_chese_glyph size) hindex hk]
  change (d.store r c (some (cheseRow size index k))).bind
    (fun d => d.store r (c + 4) (some (cheseRow size (index + 1) k))) = _
  rw [store_fill hr _ hleft, Option.bind_some, store_fill hr _ hright, fill_fill]

theorem ledShowChese_fill (hx : x ≤ 10) (hy : y ≤ 11) {str : Nat → Option Byte} {p : Nat}
    {ch : Byte} (hp : str p = some ch) (hindex : cheseIndexOf ch + 1 < (cheseFont size).length)
    (d : LedData) : ledShowChese x y size str p d =
      some (fill (cheseCell size (cheseIndexOf ch) x y) (fun q => (colOf q = x ∨ colOf q = x + 1) ∧
        4 * y ≤ rowOf q ∧ rowOf q < 4 * y + fontSize size) d) := by
  unfold ledShowChese
  rw [hp, Option.bind_some, glyphLoops_fill (putChese_fill hx hindex) hy]
  congr 2
  funext q
  apply propext
  have hrow : ∀ c, rowAt q.1 (c + 4) = rowAt q.1 c := fun c => by
    unfold rowAt
    omega
  constructor
  · rintro ⟨r, c, hr, hc, h1, h2, ⟨rfl, rfl⟩ | ⟨rfl, hq⟩⟩
    · exact ⟨Or.inl hc, h1, h2⟩
    · have e : rowOf q = rowAt q.1 c := by
        rw [← hrow c, ← hq]
        rfl
      refine ⟨Or.inr ?_, by omega, by omega⟩
      unfold colOf
      omega
  · rintro ⟨hc | hc, h1, h2⟩
    · exact ⟨q.1, q.2, q.1.isLt, hc, h1, h2, Or.inl ⟨rfl, rfl⟩⟩
    · have hc4 : q.2.val = q.2.val - 4 + 4 := by
        unfold colOf at hc
        omega
      have e : rowOf q = rowAt q.1 (q.2.val - 4) := by
        rw [← hrow, ← hc4]
        rfl
      refine ⟨q.1, q.2.val - 4, q.1.isLt, ?_, by omega, by omega, Or.inr ⟨rfl, hc4⟩⟩
      unfold colOf at hc
      omega

/-- a Chinese character is drawn by the blits of its two halves, if the font has them -/
theorem shows_showChese (hx : x ≤ 10) (hy : y ≤ 11) {str : Nat → Option Byte} {p : Nat} {ch : Byte}
    (hp : str p = some ch) (hindex : cheseIndexOf ch + 1 < (cheseFont size).length) {d : LedData}
    {bm : Nat → Nat → Byte} (hs : Shows d bm) :
    ∃ d', ledShowChese x y size str p d = some d' ∧
      Shows d' (blitAll (fontSize size) (4 * y)
        [cheseRow size (cheseIndexOf ch), cheseRow size (cheseIndexOf ch + 1)] x bm) := by
  refine ⟨_, ledShowChese_fill hx hy hp hindex d, fun C R => ?_⟩
  have hcol := colOf_cellOf C R
  have hrow := rowOf_cellOf C R
  by_cases hin : (C.val = x ∨ C.val = x + 1) ∧ 4 * y ≤ R.val ∧ R.val < 4 * y + fontSize size
  · rw [fill_of (by rw [hcol, hrow]; exact hin), cheseCell]
    obtain ⟨hC, h1, h2⟩ := hin
    obtain ⟨k, hk, hk2⟩ : ∃ k, C.val = x + k ∧ k < 2 := ⟨C.val - x, by omega, by omega⟩
    rw [hcol, hrow, hk, Nat.add_sub_cancel_left, blitAll_inside hk2 h1 h2]
    match k, hk2 with
    | 0, _ => rfl
    | 1, _ => rfl
  · rw [fill_of_not (by rw [hcol, hrow]; exact hin), hs C R, blitAll_of_outside]
    rw [List.length_cons, List.length_cons, List.length_nil]
    omega

end

theorem cheseIndexOf_lt : ∀ ch : Byte, cheseIndexOf ch + 1 < (cheseFont 12).length := by
  decide +kernel

/-- the two halves of a character -/
def cheseHalves (size : Nat) (ch : Byte) : List (Nat → Byte) :=
  [cheseRow size (cheseIndexOf ch), cheseRow size (cheseIndexOf ch + 1)]

/-- one pass of the loop; `chs` are the first bytes of the characters behind it: all of them, or as
many as there is room for -/
theorem ledShowNChese_cons {size x y p : Nat} {n : BitVec 16} {str : Nat → Option Byte} {ch : Byte}
    {chs : List Byte} {d d' : LedData} (hd : ledShowChese x y size str p d = some d')
    (hx : x + 2 * (ch :: chs).length ≤ 12)
    (hn : n.toNat = (ch :: chs).length ∨
      (ch :: chs).length < n.toNat ∧ 10 < x + 2 * (ch :: chs).length) :
    (chs = [] ∧ ledShowNChese x y size n str p d = some d') ∨
    (chs ≠ [] ∧ ledShowNChese x y size n str p d =
        ledShowNChese (x + 2) y size (n - 1) str (p + 2) d' ∧
      ((n - 1).toNat = chs.length ∨
        chs.length < (n - 1).toNat ∧ 10 < x + 2 + 2 * chs.length)) := by
  rw [List.length_cons] at hx hn
  have hsub : (n - 1).toNat = n.toNat - 1 :=
    BitVec.toNat_sub_of_le (by rw [BitVec.le_def]; show 1 ≤ n.toNat; omega)
  rw [ledShowNChese, hd, Option.bind_some]
  cases chs with
  | nil =>
    refine Or.inl ⟨rfl, if_pos ?_⟩
    rw [List.length_nil] at hn
    rcases hn with hone | ⟨-, hroom⟩
    · exact Or.inl (BitVec.eq_of_toNat_eq (by rw [hsub, hone]; rfl))
    · exact Or.inr (by omega)
  | cons c cs =>
    rw [List.length_cons] at hx hn
    have hnz : ¬ n - 1 = 0 := by
      intro hz
      have hz' : (n - 1).toNat = 0 := by rw [hz]; rfl
      omega
    refine Or.inr ⟨List.cons_ne_nil _ _, if_neg (not_or.mpr ⟨hnz, by omega⟩), ?_⟩
    rw [List.length_cons, hsub]
    omega

theorem shows_showNChese {size y : Nat} (hy : y ≤ 11) {str : Nat → Option Byte} {chs : List Byte}
    {x p : Nat} {n : BitVec 16} (hne : chs ≠ []) (hx : x + 2 * chs.length ≤ 12)
    (hn : n.toNat = chs.length ∨ chs.length < n.toNat ∧ 10 < x + 2 * chs.length)
    (hstr : ∀ j (h : j < chs.length), str (p + 2 * j) = some chs[j])
    (hfont : ∀ ch ∈ chs, cheseIndexOf ch + 1 < (cheseFont size).length)
    {d : LedData} {bm : Nat → Nat → Byte} (hs : Shows d bm) :
    ∃ d', ledShowNChese x y size n str p d = some d' ∧
      Shows d' (blitAll (fontSize size) (4 * y) (chs.flatMap (cheseHalves size)) x bm) := by
  induction chs generalizing x p n d bm with
  | nil => exact absurd rfl hne
  | cons ch chs ih =>
    have hlen : (ch :: chs).length = chs.length + 1 := rfl
    obtain ⟨d1, hd, hs1⟩ : ∃ d1, ledShowChese x y size str p d = some d1 ∧
        Shows d1 (blitAll (fontSize size) (4 * y) (cheseHalves size ch) x bm) :=
      shows_showChese (by omega) hy (hstr 0 (Nat.succ_pos _)) (hfont ch List.mem_cons_self) hs
    rcases ledShowNChese_cons hd hx hn with ⟨rfl, hlast⟩ | ⟨hne', hnext, hn'⟩
    · exact ⟨d1, hlast, hs1⟩
    · rw [hnext]
      refine ih hne' (by omega) hn' (fun j hj => ?_)
        (fun c hc => hfont c (List.mem_cons_of_mem ch hc)) hs1
      have h := hstr (j + 1) (Nat.succ_lt_succ hj)
      rwa [show p + 2 * (j + 1) = p + 2 + 2 * j by omega] at h

end ENV

import Enviroment.Led.Blit
import Enviroment.Lib.Blocks

/-!
# Chinese characters by their number (`LED_ShowNChese`)

The loop draws before it counts, so a number of zero wraps round; the lookup compares the first byte
of a character, and a character that it does not find is drawn as the first entry; the large font
has no glyph for the last entry.

* `DrawsChese`               what the characters of a string should do to the display;
* `Drawable`                 the strings for which they do;
* `ledShowNChese_iff`        these are all.
-/

namespace ENV

open Bitmap

/-- the `k`-th character of a string -/
def cheseChar (s : Nat → Byte) (k : Nat) : List Byte := [s (2 * k), s (2 * k + 1)]

/-- the rows of a line of text -/
def InLine (y size : Nat) (R : Fin 48) : Prop := 4 * y ≤ R.val ∧ R.val < 4 * y + fontSize size

/-- the bytes of `d` in the columns of the `k`-th character are the halves of the glyph `index` -/
def HasGlyph (x y size k index : Nat) (d : LedData) : Prop :=
  ∀ h < 2, ∀ (C : Fin 12) (R : Fin 48), C.val = x + 2 * k + h → InLine y size R →
    fontAt (cheseFont size) (index + h) (R.val - 4 * y : Nat) = some (d (cellOf C R))

/-- the characters that are in `Chese_index` have their glyphs, and nothing else is changed -/
structure DrawsChese (x y size : Nat) (n : BitVec 16) (s : Nat → Byte) (d d' : LedData) :
    Prop where
  glyph : ∀ k < n.toNat, x + 2 * k ≤ 10 → ∀ i, cheseIndex[i]? = some (cheseChar s k) →
    HasGlyph x y size k (2 * i) d'
  rest : ∀ C R, (∀ k < n.toNat, x + 2 * k ≤ 10 → (C.val = x + 2 * k ∨ C.val = x + 2 * k + 1) →
    InLine y size R → cheseChar s k ∉ cheseIndex) → d' (cellOf C R) = d (cellOf C R)

/-- There is a character, and each one that has room is in `Chese_index` and in the font; or it is
not in `Chese_index`, and the display already has the glyph that the lookup falls back to. -/
def Drawable (x y size : Nat) (n : BitVec 16) (s : Nat → Byte) (d : LedData) : Prop :=
  n ≠ 0 ∧ ∀ k < n.toNat, x + 2 * k ≤ 10 → (size = 12 ∨ s (2 * k) ≠ 0xd6) ∧
    (cheseChar s k ∈ cheseIndex ∨ HasGlyph x y size k (cheseIndexOf (s (2 * k))) d)

/-! ## the lookup -/

theorem cheseIndexOf_entry {i : Nat} {s : Nat → Byte} {k : Nat}
    (h : cheseIndex[i]? = some (cheseChar s k)) : cheseIndexOf (s (2 * k)) = 2 * i := by
  have hall : ∀ i < 10, cheseIndexOf ((cheseIndex.getD i []).headD 0) = 2 * i := by decide +kernel
  obtain ⟨hi, he⟩ := List.getElem?_eq_some_iff.mp h
  have hd := hall i hi
  rw [List.getD_eq_getElem _ _ hi, he] at hd
  exact hd

/-- only the last entry has no glyph in the large font -/
theorem cheseIndexOf_font (size : Nat) (ch : Byte) :
    cheseIndexOf ch + 1 < (cheseFont size).length ↔ size = 12 ∨ ch ≠ 0xd6 := by
  have hlarge : ∀ ch : Byte, cheseIndexOf ch + 1 < 18 ↔ ch ≠ 0xd6 := by decide +kernel
  by_cases hsize : size = 12
  · subst hsize
    exact ⟨fun _ => Or.inl rfl, fun _ => cheseIndexOf_lt ch⟩
  · have hlen : (cheseFont size).length = 18 := by
      unfold cheseFont
      rw [if_neg hsize]
      rfl
    rw [hlen, hlarge]
    exact ⟨Or.inr, fun h => h.resolve_left hsize⟩

theorem cheseIndexOf_d6 : cheseIndexOf 0xd6 = 18 := by decide

/-! ## a character without a glyph -/

theorem ledShowChese_none {x y size p : Nat} {str : Nat → Option Byte} {ch : Byte}
    (hp : str p = some ch) (hch : ¬ (size = 12 ∨ ch ≠ 0xd6)) (d : LedData) :
    ledShowChese x y size str p d = none := by
  obtain ⟨hsize, hd6⟩ := not_or.mp hch
  have hch' : ch = 0xd6 := not_not.mp hd6
  have hput : ∀ (d : LedData) r c k, putChese size 18 d r c k = none := by
    intro d r c k
    have hfont : fontAt (cheseFont size) 18 k = none := by
      unfold fontAt cheseFont
      rw [if_neg hsize]
      split <;> rfl
    unfold putChese LedData.store
    rw [hfont]
    split <;> rfl
  have hloop : loopPairs 0 (4 - y % 4) 0 ≠ [] := by
    apply List.ne_nil_of_mem (a := (0, 0))
    rw [mem_loopPairs]
    omega
  unfold ledShowChese
  rw [hp, Option.bind_some, hch', cheseIndexOf_d6]
  unfold glyphLoops
  dsimp only
  rw [if_neg (fun h => hsize h.1), foldlM_none hloop (fun d ij => hput d _ _ _)]
  rfl

theorem ledShowNChese_none {size x y p : Nat} (hy : y ≤ 11) {str : Nat → Option Byte}
    {chs : List Byte} {n : BitVec 16} (hx : x + 2 * chs.length ≤ 12)
    (hn : n.toNat = chs.length ∨ chs.length < n.toNat ∧ 10 < x + 2 * chs.length)
    (hstr : ∀ j (h : j < chs.length), str (p + 2 * j) = some chs[j])
    (hfont : ∃ ch ∈ chs, ¬ (size = 12 ∨ ch ≠ 0xd6)) (d : LedData) :
    ledShowNChese x y size n str p d = none := by
  induction chs generalizing x p n d with
  | nil =>
    obtain ⟨_, hmem, -⟩ := hfont
    cases hmem
  | cons ch chs ih =>
    have hlen : (ch :: chs).length = chs.length + 1 := rfl
    have hp : str p = some ch := hstr 0 (Nat.succ_pos _)
    by_cases hch : size = 12 ∨ ch ≠ 0xd6
    · have hd := ledShowChese_fill (show x ≤ 10 by omega) hy hp
        ((cheseIndexOf_font size ch).mpr hch) d
      obtain ⟨c, hc, hbad⟩ := hfont
      have hc' : c ∈ chs := by
        rcases List.mem_cons.mp hc with e | hc
        · rw [e] at hbad
          exact absurd hch hbad
        · exact hc
      rcases ledShowNChese_cons hd hx hn with ⟨rfl, -⟩ | ⟨-, hnext, hn'⟩
      · cases hc'
      · rw [hnext]
        refine ih (by omega) hn' (fun j hj => ?_) ⟨c, hc', hbad⟩ _
        have h := hstr (j + 1) (Nat.succ_lt_succ hj)
        rwa [show p + 2 * (j + 1) = p + 2 + 2 * j by omega] at h
    · rw [ledShowNChese, ledShowChese_none hp hch]
      rfl

/-! ## the characters that have room -/

section
variable {x y size : Nat} {n : BitVec 16} {s : Nat → Byte}

/-- the first bytes of the characters that have room -/
def firstBytes (x : Nat) (n : BitVec 16) (s : Nat → Byte) : List Byte :=
  (List.range (min n.toNat ((12 - x) / 2))).map fun k => s (2 * k)

theorem length_firstBytes (x : Nat) (n : BitVec 16) (s : Nat → Byte) :
    (firstBytes x n s).length = min n.toNat ((12 - x) / 2) := by
  unfold firstBytes
  rw [List.length_map, List.length_range]

theorem getElem_firstBytes {k : Nat} (hk : k < (firstBytes x n s).length) :
    (firstBytes x n s)[k] = s (2 * k) := by
  refine (List.getElem_map _).trans ?_
  rw [List.getElem_range]

theorem lt_length_firstBytes (hx : x ≤ 10) {k : Nat} :
    k < (firstBytes x n s).length ↔ k < n.toNat ∧ x + 2 * k ≤ 10 := by
  rw [length_firstBytes]
  omega

theorem firstBytes_fits (hx : x ≤ 10) : x + 2 * (firstBytes x n s).length ≤ 12 := by
  rw [length_firstBytes]
  omega

theorem firstBytes_number (hx : x ≤ 10) : n.toNat = (firstBytes x n s).length ∨
    (firstBytes x n s).length < n.toNat ∧ 10 < x + 2 * (firstBytes x n s).length := by
  rw [length_firstBytes]
  omega

theorem readable_firstBytes (hx : x ≤ 10) (j : Nat) (hj : j < (firstBytes x n s).length) :
    readable s (2 * n.toNat) (0 + 2 * j) = some (firstBytes x n s)[j] := by
  have hlt := ((lt_length_firstBytes hx).mp hj).1
  rw [getElem_firstBytes hj, Nat.zero_add, readable, if_pos (by omega)]

theorem length_flatMap_halves (size : Nat) (chs : List Byte) :
    (chs.flatMap (cheseHalves size)).length = 2 * chs.length :=
  length_flatMap_const (f := cheseHalves size) (w := 2) (fun _ => rfl) chs

theorem getElem?_flatMap_halves (size : Nat) {chs : List Byte} {k h : Nat} (hk : k < chs.length)
    (hh : h < 2) : (chs.flatMap (cheseHalves size))[2 * k + h]? =
      some (cheseRow size (cheseIndexOf chs[k] + h)) := by
  rw [getElem?_flatMap_const (f := cheseHalves size) (fun _ => rfl) hk hh]
  match h, hh with
  | 0, _ => rfl
  | 1, _ => rfl

theorem ledShowNChese_glyphs (hx : x ≤ 10) (hy : y ≤ 11) (hn : n ≠ 0)
    (hfont : ∀ k < n.toNat, x + 2 * k ≤ 10 → size = 12 ∨ s (2 * k) ≠ 0xd6) (d : LedData) :
    ∃ d', ledShowNChese x y size n (readable s (2 * n.toNat)) 0 d = some d' ∧
      (∀ k < n.toNat, x + 2 * k ≤ 10 →
        HasGlyph x y size k (cheseIndexOf (s (2 * k))) d') ∧
      ∀ C R, (∀ k < n.toNat, x + 2 * k ≤ 10 → (C.val = x + 2 * k ∨ C.val = x + 2 * k + 1) →
        ¬ InLine y size R) → d' (cellOf C R) = d (cellOf C R) := by
  have hpos : n.toNat ≠ 0 := fun h => hn (BitVec.eq_of_toNat_eq h)
  have hne : firstBytes x n s ≠ [] :=
    List.ne_nil_of_length_pos ((lt_length_firstBytes hx).mpr ⟨by omega, by omega⟩)
  have hall : ∀ ch ∈ firstBytes x n s, cheseIndexOf ch + 1 < (cheseFont size).length := by
    intro ch hch
    obtain ⟨k, hk, rfl⟩ := List.getElem_of_mem hch
    rw [getElem_firstBytes hk, cheseIndexOf_font]
    exact hfont k ((lt_length_firstBytes hx).mp hk).1 ((lt_length_firstBytes hx).mp hk).2
  obtain ⟨d', hrun, hs⟩ := shows_showNChese hy hne (firstBytes_fits hx) (firstBytes_number hx)
    (readable_firstBytes hx) hall (shows_picture d)
  refine ⟨d', hrun, fun k hk hroom h hh C R hC hR => ?_, fun C R hout => ?_⟩
  · have hlt := (lt_length_firstBytes (s := s) hx).mpr ⟨hk, hroom⟩
    obtain ⟨hget, hval⟩ := List.getElem?_eq_some_iff.mp
      (getElem?_flatMap_halves size hlt hh)
    have hindex : cheseIndexOf (s (2 * k)) + h < (cheseFont size).length := by
      have hlast := hall _ (List.getElem_mem hlt)
      rw [getElem_firstBytes hlt] at hlast
      omega
    obtain ⟨hR1, hR2⟩ := hR
    rw [hs C R, hC, Nat.add_assoc, blitAll_inside hget hR1 hR2, hval, getElem_firstBytes hlt,
      fontAt_eq (length_chese_glyph size) hindex (by omega)]
    rfl
  · rw [hs C R, shows_picture d C R]
    apply blitAll_of_outside
    rw [length_flatMap_halves]
    rintro ⟨hR1, hR2, hC1, hC2⟩
    obtain ⟨hk, hroom⟩ := (lt_length_firstBytes (s := s) (n := n) hx).mp
      (show (C.val - x) / 2 < _ by omega)
    exact hout _ hk hroom (by omega) ⟨hR1, hR2⟩

theorem draws_of_drawable (hx : x ≤ 10) (hy : y ≤ 11) {d : LedData}
    (h : Drawable x y size n s d) :
    ∃ d', ledShowNChese x y size n (readable s (2 * n.toNat)) 0 d = some d' ∧
      DrawsChese x y size n s d d' := by
  obtain ⟨hn, hchar⟩ := h
  obtain ⟨d', hrun, hglyph, hout⟩ :=
    ledShowNChese_glyphs hx hy hn (fun k hk hroom => (hchar k hk hroom).1) d
  refine ⟨d', hrun, fun k hk hroom i hi => ?_, fun C R hrest => ?_⟩
  · rw [← cheseIndexOf_entry hi]
    exact hglyph k hk hroom
  · by_cases hin : ∃ k, k < n.toNat ∧ x + 2 * k ≤ 10 ∧
        (C.val = x + 2 * k ∨ C.val = x + 2 * k + 1) ∧ InLine y size R
    · -- not in the index: the display had what is drawn
      obtain ⟨k, hk, hroom, hC, hR⟩ := hin
      have hold := (hchar k hk hroom).2.resolve_left (hrest k hk hroom hC hR)
      have hC' : C.val = x + 2 * k + (C.val - (x + 2 * k)) := by omega
      have h1 := hglyph k hk hroom _ (by omega) C R hC' hR
      have h2 := hold _ (by omega) C R hC' hR
      exact Option.some.inj (h1.symm.trans h2)
    · exact hout C R (fun k hk hroom hC hR => hin ⟨k, hk, hroom, hC, hR⟩)

theorem drawable_of_draws (hx : x ≤ 10) (hy : y ≤ 11) {d d' : LedData}
    (hrun : ledShowNChese x y size n (readable s (2 * n.toNat)) 0 d = some d')
    (h : DrawsChese x y size n s d d') : Drawable x y size n s d := by
  have hn : n ≠ 0 := by
    rintro rfl
    -- nothing can be read
    rw [ledShowNChese] at hrun
    cases hrun
  have hfont : ∀ k < n.toNat, x + 2 * k ≤ 10 → size = 12 ∨ s (2 * k) ≠ 0xd6 := by
    intro k hk hroom
    by_contra hbad
    have hlt := (lt_length_firstBytes (s := s) hx).mpr ⟨hk, hroom⟩
    have hmem := List.getElem_mem hlt
    rw [getElem_firstBytes hlt] at hmem
    rw [ledShowNChese_none hy (firstBytes_fits hx) (firstBytes_number hx)
      (readable_firstBytes hx) ⟨_, hmem, hbad⟩ d] at hrun
    cases hrun
  obtain ⟨d1, hrun1, hglyph, -⟩ := ledShowNChese_glyphs hx hy hn hfont d
  have e : d1 = d' := Option.some.inj (hrun1.symm.trans hrun)
  rw [e] at hglyph
  refine ⟨hn, fun k hk hroom => ⟨hfont k hk hroom, ?_⟩⟩
  by_cases hmem : cheseChar s k ∈ cheseIndex
  · exact Or.inl hmem
  · refine Or.inr fun j hj C R hC hR => ?_
    rw [hglyph k hk hroom j hj C R hC hR, h.rest C R]
    intro k' _ _ hC' _
    have hkk : k' = k := by omega
    rw [hkk]
    exact hmem

/-- **The characters of a string are drawn exactly if it is drawable.**  The loop ends, reads no
other byte, stays in the fonts and in `LED_DATA`, and changes what it should. -/
theorem ledShowNChese_iff (hx : x ≤ 10) (hy : y ≤ 11) (size : Nat) (n : BitVec 16) (s : Nat → Byte)
    (d : LedData) :
    (∃ d', ledShowNChese x y size n (readable s (2 * n.toNat)) 0 d = some d' ∧
      DrawsChese x y size n s d d') ↔ Drawable x y size n s d :=
  ⟨fun ⟨_, hrun, h⟩ => drawable_of_draws hx hy hrun h, draws_of_drawable hx hy⟩

end

/-- four characters at the left edge of the last line, of the large font -/
def dustText (i : Nat) : Byte := [0xd1, 0xef, 0xb3, 0xbe, 0xbc, 0xe0, 0xb2, 0xe2].getD i 0

theorem ledShowNChese_iff_dust :
    ∃ d', ledShowNChese 0 9 16 4 (readable dustText (2 * (4 : BitVec 16).toNat)) 0 ledClear =
      some d' ∧ DrawsChese 0 9 16 4 dustText ledClear d' := by
  have hchars : ∀ k < 4, dustText (2 * k) ≠ 0xd6 ∧ cheseChar dustText k ∈ cheseIndex := by decide
  exact (ledShowNChese_iff (by decide) (by decide) 16 4 dustText ledClear).mpr
    ⟨by decide, fun k hk _ => ⟨Or.inr (hchars k hk).1, Or.inl (hchars k hk).2⟩⟩

/-- a character that is not in the index -/
def windText (i : Nat) : Byte := [0xb7, 0xe7].getD i 0

/-- the last character of the index -/
def valueText (i : Nat) : Byte := [0xd6, 0xb5].getD i 0

/-- no character at all; one that is not in the index; one that is not in the large font -/
theorem ledShowNChese_fails :
    (¬ ∃ d', ledShowNChese 0 0 12 0 (readable windText (2 * (0 : BitVec 16).toNat)) 0 ledClear =
      some d' ∧ DrawsChese 0 0 12 0 windText ledClear d') ∧
    (¬ ∃ d', ledShowNChese 0 0 12 1 (readable windText (2 * (1 : BitVec 16).toNat)) 0 ledClear =
      some d' ∧ DrawsChese 0 0 12 1 windText ledClear d') ∧
    ¬ ∃ d', ledShowNChese 0 0 16 1 (readable valueText (2 * (1 : BitVec 16).toNat)) 0 ledClear =
      some d' ∧ DrawsChese 0 0 16 1 valueText ledClear d' := by
  refine ⟨?_, ?_, ?_⟩
  · rintro ⟨d', hrun, h⟩
    exact (drawable_of_draws (by decide) (by decide) hrun h).1 rfl
  · rintro ⟨d', hrun, h⟩
    rcases ((drawable_of_draws (by decide) (by decide) hrun h).2 0 (by decide) (by decide)).2 with
      hmem | hglyph
    · exact absurd hmem (by decide)
    · -- the display is black, the first entry is not
      have h0 := hglyph 0 (by decide) 0 0 rfl ⟨by decide, by decide⟩
      exact absurd h0 (by decide)
  · rintro ⟨d', hrun, h⟩
    have h0 := ((drawable_of_draws (by decide) (by decide) hrun h).2 0 (by decide) (by decide)).1
    exact absurd h0 (by decide)

end ENV

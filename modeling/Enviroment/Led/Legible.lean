import Enviroment.Led.Screen

/-!
# Which runs of the display thread are legible

* `content_sprintf`      what a redraw takes from an array after `sprintf`;
* `Printed`              an array holds a number between two fixed texts;
* `screenOne_shows`, `screenTwo_shows`   the redraws as rows of glyphs;
* `Shaped`               the invariant of the loop;
* `legible_iff`          the exact condition.
-/

namespace ENV

open Bitmap Text

/-! ## characters -/

theorem printable_of_numeric : ∀ c : Byte, numeric c → printable c := by decide +kernel

theorem numeric_digit {c : Char} (h : c.isDigit) : numeric (BitVec.ofNat 8 c.toNat) := by
  have hn : 48 ≤ c.toNat ∧ c.toNat ≤ 57 := Char.isDigit_iff_toNat.mp h
  have key : ∀ n, n ≤ 57 → 48 ≤ n → numeric (BitVec.ofNat 8 n) = true := by decide +kernel
  exact key _ hn.2 hn.1

theorem numeric_toBytes {cs : List Char} (h : ∀ c ∈ cs, c.isDigit ∨ c = '-' ∨ c = '.') :
    ∀ b ∈ toBytes cs, numeric b := by
  intro b hb
  obtain ⟨c, hc, rfl⟩ := List.mem_map.mp hb
  rcases h c hc with hd | rfl | rfl
  · exact numeric_digit hd
  · decide
  · decide

theorem numeric_tenths (v : Int) : ∀ b ∈ toBytes (tenths v), numeric b := by
  apply numeric_toBytes
  intro c hc
  unfold tenths at hc
  rcases List.mem_append.mp hc with hc | hc
  · rcases List.mem_append.mp hc with hc | hc
    · rcases List.mem_append.mp hc with hc | hc
      · split at hc
        · exact Or.inr (Or.inl (List.mem_singleton.mp hc))
        · exact absurd hc List.not_mem_nil
      · exact Or.inl (isDigit_toDigits hc)
    · exact Or.inr (Or.inr (List.mem_singleton.mp hc))
  · exact Or.inl (isDigit_toDigits hc)

theorem numeric_decimal (z : Int) : ∀ b ∈ toBytes (decimal z), numeric b := by
  apply numeric_toBytes
  intro c hc
  rcases mem_decimal hc with h | h
  · exact Or.inr (Or.inl h)
  · exact Or.inl h

/-! ## lengths -/

theorem length_toBytes (cs : List Char) : (toBytes cs).length = cs.length := List.length_map _

theorem length_digit {n : Nat} (h : n < 10) : (Nat.toDigits 10 n).length = 1 := by
  rw [Nat.toDigits_of_lt_base h]
  rfl

theorem length_tenths (v : Int) : (toBytes (tenths v)).length =
    (if v < 0 then 1 else 0) + (Nat.toDigits 10 (v.natAbs / 10)).length + 2 := by
  rw [length_toBytes, tenths, List.length_append, List.length_append, List.length_append,
    length_digit (Nat.mod_lt _ (by decide))]
  split <;> rfl

theorem length_tenths_le (v : Word) : (toBytes (tenths v.toInt)).length ≤ 7 := by
  have h1 := BitVec.toInt_lt (x := v)
  have h2 := BitVec.le_toInt (x := v)
  have hd := (Nat.length_toDigits_le_iff (b := 10) (k := 4) (by decide) (by decide)).mpr
    (show v.toInt.natAbs / 10 < 10 ^ 4 by omega)
  rw [length_tenths]
  split <;> omega

theorem length_tenths_le_four (v : Int) :
    (toBytes (tenths v)).length ≤ 4 ↔ -99 ≤ v ∧ v ≤ 999 := by
  have h1 := Nat.length_toDigits_le_iff (n := v.natAbs / 10) (b := 10) (k := 1) (by decide)
    (by decide)
  have h2 := Nat.length_toDigits_le_iff (n := v.natAbs / 10) (b := 10) (k := 2) (by decide)
    (by decide)
  rw [length_tenths]
  split <;> omega

theorem length_decimal_one (v : Int) : (toBytes (decimal v)).length ≤ 1 ↔ 0 ≤ v ∧ v ≤ 9 := by
  have h1 := Nat.length_toDigits_le_iff (n := v.natAbs) (b := 10) (k := 1) (by decide)
    (by decide)
  have h0 : 0 < (Nat.toDigits 10 v.natAbs).length := Nat.length_toDigits_pos
  rw [length_toBytes, decimal]
  split
  · rw [List.length_cons]
    omega
  · omega

/-! ## strings -/

theorem takeWhile_getD (l : List Byte) (k : Nat) :
    ((List.range k).map fun i => l.getD i 0).takeWhile printable =
      (l.takeWhile printable).take k := by
  induction k generalizing l with
  | zero => rw [List.take_zero]; rfl
  | succ k ih =>
    rw [List.range_succ_eq_map, List.map_cons, List.map_map]
    cases l with
    | nil => rfl
    | cons c l =>
      show List.takeWhile printable (c :: (List.range k).map fun i => l.getD i 0) = _
      by_cases hc : printable c
      · rw [List.takeWhile_cons_of_pos hc, List.takeWhile_cons_of_pos hc, List.take_succ_cons, ih]
      · rw [List.takeWhile_cons_of_neg hc, List.takeWhile_cons_of_neg hc, List.take_nil]

theorem getElem?_readable (l : List Byte) :
    (fun i => l[i]?) = readable (fun i => l.getD i 0) l.length := by
  funext i
  unfold readable
  split
  next h =>
    show l[i]? = some (l.getD i 0)
    rw [List.getD_eq_getElem l 0 h, List.getElem?_eq_getElem h]
  next h => exact List.getElem?_eq_none (Nat.le_of_not_lt h)

theorem content_sprintf (b : Buf) {text : List Byte} (hfit : text.length + 1 ≤ 12)
    (hp : ∀ c ∈ text, printable c) : (b.sprintf text).content = text := by
  unfold Buf.sprintf Buf.content
  rw [dif_pos hfit]
  show List.takeWhile printable (text ++ [0] ++ b.chars.drop (text.length + 1)) = text
  rw [List.append_assoc, List.takeWhile_append_of_pos hp]
  exact List.append_nil text

/-! ## rows of glyphs -/

/-- glyphs in the line `y`, from the column `x` on -/
def line (y x : Nat) (glyphs : List (Nat → Byte)) (bm : Nat → Nat → Byte) : Nat → Nat → Byte :=
  blitAll 12 (4 * y) glyphs x bm

/-- the glyphs of a text that is cut at the right edge behind the column `x` -/
def cutGlyphs (x : Nat) (text : List Byte) : List (Nat → Byte) := (asciiGlyphs text).take (12 - x)

/-- the bitmap has the glyphs, up to the right edge -/
def ShownIn (bm : Nat → Nat → Byte) (x y : Nat) (glyphs : List (Nat → Byte)) : Prop :=
  ∀ k (hk : k < glyphs.length), x + k < 12 → ∀ g, g < 12 → bm (x + k) (4 * y + g) = glyphs[k] g

section
variable {bm : Nat → Nat → Byte} {x y x' y' : Nat} {glyphs others : List (Nat → Byte)}

theorem Shows.shownAt {d : LedData} (hs : Shows d bm) (h : ShownIn bm x y glyphs) :
    ShownAt d x y glyphs := by
  intro k hk hx g hg hR
  rw [hs]
  exact h k hk hx g hg

theorem shownIn_line : ShownIn (line y x glyphs bm) x y glyphs := by
  intro k hk hx g hg
  unfold line
  rw [blitAll_inside hk (Nat.le_add_right _ _) (Nat.add_lt_add_left hg _),
    Nat.add_sub_cancel_left]

/-- what is cut at the right edge is shown up to there -/
theorem shownIn_cut {text : List Byte} :
    ShownIn (line y x (cutGlyphs x text) bm) x y (asciiGlyphs text) := by
  intro k hk hx g hg
  unfold cutGlyphs
  have hk' : k < ((asciiGlyphs text).take (12 - x)).length := by
    rw [List.length_take]
    omega
  rw [shownIn_line k hk' hx g hg, List.getElem_take]

/-- another line leaves the glyphs as they are -/
theorem ShownIn.other_line (h : ShownIn bm x y glyphs) (hy : y + 3 ≤ y' ∨ y' + 3 ≤ y) :
    ShownIn (line y' x' others bm) x y glyphs := by
  intro k hk hx g hg
  unfold line
  rw [blitAll_of_outside (by omega)]
  exact h k hk hx g hg

/-- glyphs behind the others leave them as they are -/
theorem ShownIn.behind (h : ShownIn bm x y glyphs) (hx' : x + glyphs.length ≤ x') :
    ShownIn (line y' x' others bm) x y glyphs := by
  intro k hk hx g hg
  unfold line
  rw [blitAll_of_outside (by omega)]
  exact h k hk hx g hg

end

/-! ## the screens -/

/-- a drawing function that works on every display, and what it does to the bitmap -/
def Draws (f : LedData → Option LedData) (g : (Nat → Nat → Byte) → Nat → Nat → Byte) : Prop :=
  ∀ d bm, Shows d bm → ∃ d', f d = some d' ∧ Shows d' (g bm)

theorem Draws.bind {f f' : LedData → Option LedData}
    {g g' : (Nat → Nat → Byte) → Nat → Nat → Byte} (h : Draws f g) (h' : Draws f' g') :
    Draws (fun d => f d >>= f') fun bm => g' (g bm) := by
  intro d bm hs
  obtain ⟨d1, hd1, hs1⟩ := h d bm hs
  obtain ⟨d2, hd2, hs2⟩ := h' d1 (g bm) hs1
  refine ⟨d2, ?_, hs2⟩
  show (f d).bind f' = some d2
  rw [hd1, Option.bind_some, hd2]

theorem draws_string {x y : Nat} (hx : x ≤ 11) (hy : y ≤ 11) {l : List Byte}
    (hl : 12 - x ≤ l.length ∨ ∃ c ∈ l, ¬ printable c) :
    Draws (ledShowString x y 12 (fun i => l[i]?) 0)
      (line y x (cutGlyphs x (l.takeWhile printable))) := by
  intro d bm hs
  rw [getElem?_readable]
  have hn : 0 + (12 - x) ≤ l.length ∨
      ∃ i, 0 ≤ i ∧ i < l.length ∧ ¬ printable (l.getD i 0) := by
    rcases hl with h | ⟨c, hc, hp⟩
    · exact Or.inl (by omega)
    · obtain ⟨i, hi, rfl⟩ := List.getElem_of_mem hc
      refine Or.inr ⟨i, Nat.zero_le i, hi, ?_⟩
      rwa [List.getD_eq_getElem l 0 hi]
  have h := shows_showString hy 12 (fun i => l.getD i 0) l.length hx 0 hn hs
  unfold drawn at h
  rw [← List.range_eq_range', takeWhile_getD, List.map_take] at h
  exact h

theorem draws_buf {x y : Nat} (hx : x ≤ 11) (hy : y ≤ 11) (b : Buf) :
    Draws (ledShowString x y 12 b.str 0) (line y x (cutGlyphs x b.content)) :=
  draws_string hx hy (Or.inl (by rw [b.length_chars]; omega))

theorem draws_literal {x y : Nat} (hx : x ≤ 11) (hy : y ≤ 11) (s : String)
    (hp : ∀ c ∈ bytes s, printable c) :
    Draws (ledShowString x y 12 (literal s) 0) (line y x (cutGlyphs x (bytes s))) := by
  have h := draws_string (l := bytes s ++ [0]) hx hy
    (Or.inr ⟨0, List.mem_append_right _ List.mem_cons_self, by decide⟩)
  have hterm : [(0 : Byte)].takeWhile printable = [] := by decide
  rwa [List.takeWhile_append_of_pos hp, hterm, List.append_nil] at h

theorem draws_chinese {x y : Nat} (hy : y ≤ 11) {n : BitVec 16} (text chs : List Byte)
    (hne : chs ≠ []) (hx : x + 2 * chs.length ≤ 12) (hn : n.toNat = chs.length)
    (hstr : ∀ j (h : j < chs.length), text[2 * j]? = some chs[j]) :
    Draws (ledShowNChese x y 12 n (chinese text) 0) (line y x (chs.flatMap (cheseHalves 12))) := by
  intro d bm hs
  have hfont : ∀ ch ∈ chs, cheseIndexOf ch + 1 < (cheseFont 12).length :=
    fun ch _ => cheseIndexOf_lt ch
  refine shows_showNChese hy hne hx (Or.inl hn) (fun j hj => ?_) hfont hs
  have h := hstr j hj
  have hlt := (List.getElem?_eq_some_iff.mp h).1
  unfold chinese
  rw [Nat.zero_add, List.getElem?_append_left hlt, h]

theorem shows_clear : Shows ledClear fun _ _ => 0 := fun _ _ => rfl

/-- the line with the title -/
def title (bm : Nat → Nat → Byte) : Nat → Nat → Byte := line 0 3 (chineseGlyphs dustMonitor) bm

theorem draws_title : Draws (ledShowNChese 3 0 12 4 (chinese dustMonitor) 0) title :=
  draws_chinese (by decide) dustMonitor [0xd1, 0xb3, 0xbc, 0xb2] (by decide) (by decide)
    (by decide) (by decide)

/-- the bitmap of the first screen, line by line -/
def pictureOne (l : LedLocals) : Nat → Nat → Byte :=
  line 9 4 (cutGlyphs 4 l.z1.content) <| line 9 0 (chineseGlyphs noiseLabel) <|
  line 6 9 (cutGlyphs 9 (bytes "%RH")) <| line 6 4 (cutGlyphs 4 l.h1.content) <|
  line 6 0 (chineseGlyphs humidityLabel) <| line 3 4 (cutGlyphs 4 l.t1.content) <|
  line 3 0 (chineseGlyphs temperatureLabel) <| title fun _ _ => 0

theorem screenOne_shows (l : LedLocals) : ∃ d, screenOne l = some d ∧ Shows d (pictureOne l) := by
  have h1 : Draws (ledShowNChese 0 3 12 2 (chinese temperatureLabel) 0)
      (line 3 0 (chineseGlyphs temperatureLabel)) :=
    draws_chinese (by decide) temperatureLabel [0xce, 0xb6] (by decide) (by decide)
      (by decide) (by decide)
  have h2 := draws_buf (x := 4) (y := 3) (by decide) (by decide) l.t1
  have h3 : Draws (ledShowNChese 0 6 12 2 (chinese humidityLabel) 0)
      (line 6 0 (chineseGlyphs humidityLabel)) :=
    draws_chinese (by decide) humidityLabel [0xca, 0xb6] (by decide) (by decide)
      (by decide) (by decide)
  have h4 := draws_buf (x := 4) (y := 6) (by decide) (by decide) l.h1
  have h5 := draws_literal (x := 9) (y := 6) (by decide) (by decide) "%RH" (by decide)
  have h6 : Draws (ledShowNChese 0 9 12 2 (chinese noiseLabel) 0)
      (line 9 0 (chineseGlyphs noiseLabel)) :=
    draws_chinese (by decide) noiseLabel [0xd4, 0xd2] (by decide) (by decide)
      (by decide) (by decide)
  have h7 := draws_buf (x := 4) (y := 9) (by decide) (by decide) l.z1
  exact (draws_title.bind (h1.bind (h2.bind (h3.bind (h4.bind (h5.bind (h6.bind h7))))))) _ _
    shows_clear

/-- the bitmap of the second screen, line by line -/
def pictureTwo (l : LedLocals) : Nat → Nat → Byte :=
  line 9 0 (cutGlyphs 0 l.pm10.content) <| line 6 0 (cutGlyphs 0 l.pm2_5.content) <|
  line 3 2 (chineseGlyphs valueLabel) <| line 3 0 (cutGlyphs 0 (bytes "PM")) <| title fun _ _ => 0

theorem screenTwo_shows (l : LedLocals) : ∃ d, screenTwo l = some d ∧ Shows d (pictureTwo l) := by
  have h1 := draws_literal (x := 0) (y := 3) (by decide) (by decide) "PM" (by decide)
  have h2 : Draws (ledShowChese 2 3 12 (chinese valueLabel) 0)
      (line 3 2 (chineseGlyphs valueLabel)) :=
    fun _ _ hs => shows_showChese (by decide) (by decide) rfl (cheseIndexOf_lt 0xd6) hs
  have h3 := draws_buf (x := 0) (y := 6) (by decide) (by decide) l.pm2_5
  have h4 := draws_buf (x := 0) (y := 9) (by decide) (by decide) l.pm10
  exact (draws_title.bind (h1.bind (h2.bind (h3.bind h4)))) _ _ shows_clear

/-! ## the numbers -/

/-- the array holds a number of at most `n` characters between two texts -/
def Printed (pre post : List Byte) (n : Nat) (b : Buf) : Prop :=
  ∃ num, num.length ≤ n ∧ (∀ c ∈ num, numeric c) ∧ b.content = pre ++ num ++ post

theorem numField_append (pre : List Byte) {num post : List Byte} (hnum : ∀ c ∈ num, numeric c)
    (hpost : post.takeWhile numeric = []) : numField pre.length (pre ++ num ++ post) = num := by
  unfold numField
  rw [List.append_assoc, List.drop_left, List.takeWhile_append_of_pos hnum, hpost,
    List.append_nil]

theorem printed_sprintf (b : Buf) {pre num post : List Byte} {n : Nat} (hlen : num.length ≤ n)
    (hnum : ∀ c ∈ num, numeric c) (hpre : ∀ c ∈ pre, printable c)
    (hpost : ∀ c ∈ post, printable c) (hfit : (pre ++ num ++ post).length + 1 ≤ 12) :
    Printed pre post n (b.sprintf (pre ++ num ++ post)) := by
  refine ⟨num, hlen, hnum, content_sprintf b hfit ?_⟩
  intro c hc
  rcases List.mem_append.mp hc with hc | hc
  · rcases List.mem_append.mp hc with hc | hc
    · exact hpre c hc
    · exact printable_of_numeric c (hnum c hc)
  · exact hpost c hc

theorem Printed.elim {pre post : List Byte} {n : Nat} {b : Buf} (hb : Printed pre post n b)
    {f : Word → List Byte} (o : Option Word)
    (hf : ∀ v ∈ o, Printed pre post n (b.sprintf (f v))) :
    Printed pre post n (o.elim b fun v => b.sprintf (f v)) := by
  cases o with
  | none => exact hb
  | some v => exact hf v rfl

theorem Printed.legibleAt {pre post : List Byte} {n x y : Nat} {b : Buf} {d : LedData}
    (hb : Printed pre post n b) (hpost : post.takeWhile numeric = [])
    (hx : x + pre.length + n ≤ 12)
    (hs : ShownAt d x y (asciiGlyphs b.content)) :
    LegibleAt d x y pre.length b := by
  obtain ⟨num, hlen, hnum, hc⟩ := hb
  refine ⟨hs, ?_⟩
  rw [hc, numField_append pre hnum hpost]
  omega

/-! ## the texts fit -/

theorem length_t1Text (v : Word) : (t1Text v).length + 1 ≤ 12 := by
  have h := length_tenths_le v
  unfold t1Text
  rw [List.length_append, List.length_append]
  show 1 + (toBytes (tenths v.toInt)).length + 2 + 1 ≤ 12
  omega

theorem length_h1Text (v : Word) : (h1Text v).length + 1 ≤ 12 := by
  have h := length_tenths_le v
  unfold h1Text
  rw [List.length_append]
  show 1 + (toBytes (tenths v.toInt)).length + 1 ≤ 12
  omega

theorem length_z1Text (v : Word) : (z1Text v).length + 1 ≤ 12 := by
  have h := length_tenths_le v
  unfold z1Text
  rw [List.length_append, List.length_append]
  show 1 + (toBytes (tenths v.toInt)).length + 2 + 1 ≤ 12
  omega

theorem length_dust {pre post : List Byte} (hpre : pre.length = 5) (hpost : post.length = 5)
    (v : Word) : (pre ++ toBytes (decimal v.toInt) ++ post).length + 1 ≤ 12 ↔ OneDigit v := by
  have h := length_decimal_one v.toInt
  unfold OneDigit
  rw [← h, List.length_append, List.length_append, hpre, hpost]
  omega

theorem forall_printed {P : List Byte → Prop} (f : Word → List Byte) (o : Option Word) :
    (∀ text ∈ (o.map f).toList, P text) ↔ ∀ v ∈ o, P (f v) := by
  cases o with
  | none => exact ⟨fun _ _ h => (nomatch h), fun _ _ h => (nomatch h)⟩
  | some v =>
    constructor
    · intro h w hw
      exact Option.some.inj hw ▸ h (f v) List.mem_cons_self
    · intro h text htext
      exact List.mem_singleton.mp htext ▸ h v rfl

theorem fits_iff (r : Received) :
    r.Fits ↔ (∀ v ∈ r.p2, OneDigit v) ∧ ∀ v ∈ r.p10, OneDigit v := by
  have h2 : ∀ v, (pm2_5Text v).length + 1 ≤ 12 ↔ OneDigit v := length_dust rfl rfl
  have h10 : ∀ v, (pm10Text v).length + 1 ≤ 12 ↔ OneDigit v := length_dust rfl rfl
  unfold Received.Fits Received.texts
  simp only [List.forall_mem_append, forall_printed, length_t1Text, length_h1Text, length_z1Text,
    h2, h10, implies_true, true_and]

theorem fits_iff_digits (a : LedIn) : a.Fits ↔ a.Digits := by
  cases a with
  | idle => exact Iff.rfl
  | sample r clobbered => exact fits_iff r

/-! ## the loop -/

/-- the number in `h1` -/
def humidity (lastH : Option Word) : List Byte :=
  lastH.elim (bytes "--.-") fun v => toBytes (tenths v.toInt)

/-- what the loop keeps as long as every text fits -/
structure Shaped (l : LedLocals) (lastH : Option Word) : Prop where
  t1 : Printed (bytes ":") (bytes " C") 7 l.t1
  h1 : l.h1.content = bytes ":" ++ humidity lastH
  z1 : Printed (bytes ":") (bytes "db") 7 l.z1
  pm2_5 : Printed (bytes " 2.5:") (bytes "ug/m3") 2 l.pm2_5
  pm10 : Printed (bytes "  10:") (bytes "ug/m3") 2 l.pm10

theorem shaped_init : Shaped ledLocalsInit none where
  t1 := ⟨bytes "--.-", by decide, by decide, by decide⟩
  h1 := by decide
  z1 := ⟨bytes "--.-", by decide, by decide, by decide⟩
  pm2_5 := ⟨bytes "--", by decide, by decide, by decide⟩
  pm10 := ⟨bytes "--", by decide, by decide, by decide⟩

theorem Shaped.print {l : LedLocals} {lastH : Option Word} (hk : Shaped l lastH) {r : Received}
    (hd : (∀ v ∈ r.p2, OneDigit v) ∧ ∀ v ∈ r.p10, OneDigit v) :
    Shaped (l.print r) (r.h.or lastH) where
  t1 := hk.t1.elim r.t fun v _ => printed_sprintf _ (length_tenths_le v) (numeric_tenths _)
    (by decide) (by decide) (length_t1Text v)
  h1 := by
    cases hh : r.h with
    | none =>
      unfold LedLocals.print
      rw [hh]
      exact hk.h1
    | some v =>
      unfold LedLocals.print
      rw [hh]
      refine content_sprintf l.h1 (length_h1Text v) fun c hc => ?_
      rcases List.mem_append.mp hc with hc | hc
      · exact (show ∀ c ∈ bytes ":", printable c by decide) c hc
      · exact printable_of_numeric c (numeric_tenths v.toInt c hc)
  z1 := hk.z1.elim r.n fun v _ => printed_sprintf _ (length_tenths_le v) (numeric_tenths _)
    (by decide) (by decide) (length_z1Text v)
  pm2_5 := hk.pm2_5.elim r.p2 fun v hv => by
    have hlen := (length_decimal_one v.toInt).mpr (hd.1 v hv)
    exact printed_sprintf _ (Nat.le_succ_of_le hlen) (numeric_decimal _) (by decide) (by decide)
      ((length_dust rfl rfl v).mpr (hd.1 v hv))
  pm10 := hk.pm10.elim r.p10 fun v hv => by
    have hlen := (length_decimal_one v.toInt).mpr (hd.2 v hv)
    exact printed_sprintf _ (Nat.le_succ_of_le hlen) (numeric_decimal _) (by decide) (by decide)
      ((length_dust rfl rfl v).mpr (hd.2 v hv))

theorem Shaped.received {s : LedThread} (hk : Shaped s.locals s.lastH) {a : LedIn} (hd : a.Digits) :
    Shaped (s.received a) (s.heldH a) ∧ (s.received a).i = s.locals.i := by
  cases a with
  | idle => exact ⟨hk, rfl⟩
  | sample r clobbered =>
    have hr : s.received (.sample r clobbered) = s.locals.print r :=
      if_pos ((fits_iff r).mpr hd)
    rw [hr]
    exact ⟨hk.print hd, rfl⟩

theorem shaped_step {s t : LedThread} {a : LedIn} (hk : Shaped s.locals s.lastH) (hd : a.Digits)
    (ht : ledTurn s a = some t) : Shaped t.locals t.lastH := by
  have h := (hk.received hd).1
  rw [← Option.some.inj ht]
  exact ⟨h.t1, h.h1, h.z1, h.pm2_5, h.pm10⟩

/-! ## one redraw -/

theorem length_humidity_le (lastH : Option Word) :
    (humidity lastH).length ≤ 4 ↔ ∀ v ∈ lastH, -99 ≤ v.toInt ∧ v.toInt ≤ 999 := by
  cases lastH with
  | none => exact ⟨fun _ _ h => (nomatch h), fun _ => Nat.le_refl 4⟩
  | some v =>
    have h := length_tenths_le_four v.toInt
    constructor
    · intro hlen w hw
      exact Option.some.inj hw ▸ h.mp hlen
    · intro hv
      exact h.mpr (hv v rfl)

theorem numeric_humidity (lastH : Option Word) : ∀ c ∈ humidity lastH, numeric c := by
  cases lastH with
  | none => decide
  | some v => exact numeric_tenths v.toInt

/-- the percent sign is not a digit, a sign or a point -/
theorem glyph_percent : ∀ c : Byte, numeric c → ∃ g < 12, asciiRow 12 c g ≠ asciiRow 12 0x25 g := by
  decide +kernel

/-- behind four characters the humidity and `%RH` would be shown in one cell -/
theorem length_humidity_of_shown {l : LedLocals} {lastH : Option Word} {d : LedData}
    (hk : Shaped l lastH) (hl : LegibleOne l d) : (humidity lastH).length ≤ 4 := by
  by_contra hlen
  have hlen : 4 < (humidity lastH).length := Nat.lt_of_not_le hlen
  have hk5 : 5 < (asciiGlyphs l.h1.content).length := by
    unfold asciiGlyphs
    rw [List.length_map, hk.h1, List.length_append]
    show 5 < 1 + (humidity lastH).length
    omega
  have hglyph : (asciiGlyphs l.h1.content)[5] = asciiRow 12 (humidity lastH)[4] := by
    simp only [asciiGlyphs, List.getElem_map, hk.h1]
    exact congrArg _ (List.getElem_append_right (show (bytes ":").length ≤ 5 by decide))
  obtain ⟨g, hg, hne⟩ := glyph_percent _ (numeric_humidity lastH _ (List.getElem_mem hlen))
  have h1 := hl.h1.1 5 hk5 (by decide) g hg (by omega)
  have h2 := hl.rh 0 (by decide) (by decide) g hg (by omega)
  rw [hglyph] at h1
  exact hne (h1.symm.trans h2)

theorem legibleOne_of_shaped {l : LedLocals} {lastH : Option Word} {d : LedData}
    (hk : Shaped l lastH) (hlen : (humidity lastH).length ≤ 4) (hs : Shows d (pictureOne l)) :
    LegibleOne l d := by
  have hcontent : (asciiGlyphs l.h1.content).length ≤ 5 := by
    unfold asciiGlyphs
    rw [List.length_map, hk.h1, List.length_append]
    show 1 + (humidity lastH).length ≤ 5
    omega
  have hfield : numField 1 l.h1.content = humidity lastH := by
    rw [hk.h1, ← List.append_nil (bytes ":" ++ humidity lastH)]
    exact numField_append (bytes ":") (numeric_humidity lastH) rfl
  -- the lines are taken off from the last one on
  have h9 : ∀ {bm x y glyphs}, ShownIn bm x y glyphs → y + 3 ≤ 9 →
      ShownIn (line 9 4 (cutGlyphs 4 l.z1.content) <| line 9 0 (chineseGlyphs noiseLabel) bm)
        x y glyphs := fun h hy => (h.other_line (Or.inl hy)).other_line (Or.inl hy)
  have h6 : ∀ {bm x y glyphs}, ShownIn bm x y glyphs → y + 3 ≤ 6 →
      ShownIn (line 6 9 (cutGlyphs 9 (bytes "%RH")) <| line 6 4 (cutGlyphs 4 l.h1.content) <|
        line 6 0 (chineseGlyphs humidityLabel) bm) x y glyphs := fun h hy =>
    ((h.other_line (Or.inl hy)).other_line (Or.inl hy)).other_line (Or.inl hy)
  refine {
    title := hs.shownAt ?title
    temperature := hs.shownAt ?temperature
    t1 := ?t1
    humidity := hs.shownAt ?humidity
    h1 := ⟨hs.shownAt ?h1, ?field⟩
    rh := hs.shownAt ?rh
    noise := hs.shownAt ?noise
    z1 := ?z1 }
  case title =>
    refine h9 (h6 ?_ (by decide)) (by decide)
    refine (ShownIn.other_line ?_ (by decide)).other_line (by decide)
    exact shownIn_line
  case temperature =>
    refine h9 (h6 (ShownIn.behind ?_ (by decide)) (by decide)) (by decide)
    exact shownIn_line
  case t1 =>
    refine hk.t1.legibleAt (by decide) (by decide) (hs.shownAt ?_)
    exact h9 (h6 shownIn_cut (by decide)) (by decide)
  case humidity =>
    refine h9 ((ShownIn.behind ?_ (by decide)).behind (by decide)) (by decide)
    exact shownIn_line
  case h1 => exact h9 (shownIn_cut.behind (by omega)) (by decide)
  case field =>
    rw [hfield]
    omega
  case rh => exact h9 shownIn_cut (by decide)
  case noise => exact shownIn_line.behind (by decide)
  case z1 => exact hk.z1.legibleAt (by decide) (by decide) (hs.shownAt shownIn_cut)

theorem legibleTwo_of_shaped {l : LedLocals} {lastH : Option Word} {d : LedData}
    (hk : Shaped l lastH) (hs : Shows d (pictureTwo l)) : LegibleTwo l d := by
  have h69 : ∀ {bm x y glyphs}, ShownIn bm x y glyphs → y + 3 ≤ 6 →
      ShownIn (line 9 0 (cutGlyphs 0 l.pm10.content) <| line 6 0 (cutGlyphs 0 l.pm2_5.content) bm)
        x y glyphs := fun h hy =>
    (h.other_line (Or.inl hy)).other_line (Or.inl (Nat.le_trans hy (by decide)))
  refine {
    title := hs.shownAt ?title
    pm := hs.shownAt ?pm
    value := hs.shownAt ?value
    pm2_5 := ?pm2_5
    pm10 := ?pm10 }
  case title =>
    refine h69 ((ShownIn.other_line ?_ (by decide)).other_line (by decide)) (by decide)
    exact shownIn_line
  case pm =>
    refine h69 (ShownIn.behind ?_ (by decide)) (by decide)
    exact shownIn_cut
  case value => exact h69 shownIn_line (by decide)
  case pm2_5 =>
    refine hk.pm2_5.legibleAt (by decide) (by decide) (hs.shownAt ?_)
    exact shownIn_cut.other_line (by decide)
  case pm10 => exact hk.pm10.legibleAt (by decide) (by decide) (hs.shownAt shownIn_cut)

/-! ## runs -/

theorem legible_step {s t : LedThread} {a : LedIn} (hk : Shaped s.locals s.lastH) :
    Legible s a t ↔ Narrow s a t := by
  constructor
  · intro hl
    have hd := (fits_iff_digits a).mp hl.fits
    obtain ⟨hr, hi⟩ := hk.received hd
    refine ⟨hd, fun h500 => ?_⟩
    obtain ⟨d, -, hone⟩ := hl.one (hi ▸ h500)
    exact (length_humidity_le _).mp (length_humidity_of_shown hr hone)
  · rintro ⟨hd, hh⟩
    obtain ⟨hr, hi⟩ := hk.received hd
    refine ⟨(fits_iff_digits a).mpr hd, fun h500 => ?_, fun _ => ?_⟩
    · obtain ⟨d, he, hs⟩ := screenOne_shows (s.received a)
      have hlen := (length_humidity_le _).mpr (hh (hi ▸ h500))
      exact ⟨d, he, legibleOne_of_shaped hr hlen hs⟩
    · obtain ⟨d, he, hs⟩ := screenTwo_shows (s.received a)
      exact ⟨d, he, legibleTwo_of_shaped hr hs⟩

/-- **The display is legible along a run exactly if** the dust values that it receives are single
digits, and a humidity that it draws has at most four characters. -/
theorem legible_iff (d : LedData) (as : List LedIn) :
    Trace.Along ledTurn Legible (ledInit d) as ↔ Trace.Along ledTurn Narrow (ledInit d) as :=
  Trace.along_iff_of_step (I := fun s => Shaped s.locals s.lastH)
    (fun s a t hk _ => legible_step (s := s) (a := a) (t := t) hk)
    (fun _ _ _ hk ht hl => shaped_step hk ((fits_iff_digits _).mp hl.fits) ht) shaped_init as

/-- a dust value of two digits overruns its array in the first turn, and the digit behind the point
of a humidity of 100.0 is drawn over -/
theorem legible_fails :
    ¬ Trace.Along ledTurn Legible (ledInit ledClear)
      [.sample ⟨some 231, some 450, some 512, some 25, some 8⟩ ledLocalsInit] ∧
    ¬ Trace.Along ledTurn Legible (ledInit ledClear)
      [.sample ⟨some 231, some 1000, some 512, some 5, some 8⟩ ledLocalsInit] := by
  constructor
  · intro h
    have hn := (legible_step shaped_init).mp (h _ rfl).1
    exact absurd (hn.1.1 25 rfl) (by unfold OneDigit; decide)
  · intro h
    have hn := (legible_step shaped_init).mp (h _ rfl).1
    exact absurd (hn.2 rfl 1000 rfl) (by decide)

end ENV

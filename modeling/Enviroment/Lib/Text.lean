import Mathlib.Algebra.GroupWithZero.Nat
import Mathlib.Data.List.GetD
import Mathlib.Data.List.Infix
import Mathlib.Tactic.Common
import Enviroment.Lib.Blocks

/-!
# Texts: signed decimals, hex digits and `key=value` fields

* `decimal`, `readDecimal`   printing and reading, inverse to each other (`readDecimal_decimal`);
* `hexPair`, `hexDecode`     two upper-case digits for a character, and back
                             (`hexDecode_flatMap`);
* `fieldOf`                  the value of a key in items separated by a character, read back from
                             the items put together (`fieldOf_join`).

Nothing here knows the program.
-/

namespace Text

/-! ## decimals -/

/-- a minus sign for the negative numbers, then the digits -/
def decimal (z : Int) : List Char :=
  if z < 0 then '-' :: Nat.toDigits 10 z.natAbs else Nat.toDigits 10 z.natAbs

def readDigits (ds : List Char) : Option Nat :=
  if ds ≠ [] ∧ ds.all Char.isDigit then some (Nat.ofDigitChars 10 ds 0) else none

def readDecimal : List Char → Option Int
  | '-' :: ds => (readDigits ds).map fun n => -Int.ofNat n
  | ds => (readDigits ds).map Int.ofNat

theorem isDigit_toDigits {n : Nat} {c : Char} (h : c ∈ Nat.toDigits 10 n) : c.isDigit :=
  Nat.isDigit_of_mem_toDigits (by decide) (by decide) h

theorem toNat_lt_of_isDigit {c : Char} (h : c.isDigit) : c.toNat < 256 := by
  have hle : c.toNat ≤ 57 := (Char.isDigit_iff_toNat.mp h).2
  omega

theorem readDigits_toDigits (n : Nat) : readDigits (Nat.toDigits 10 n) = some n := by
  unfold readDigits
  have hall : (Nat.toDigits 10 n).all Char.isDigit :=
    List.all_eq_true.mpr fun c hc => isDigit_toDigits hc
  rw [if_pos ⟨Nat.toDigits_ne_nil, hall⟩, Nat.ofDigitChars_ten_toDigits]

theorem readDecimal_digits (ds : List Char) (h : ∀ c ∈ ds, c.isDigit) :
    readDecimal ds = (readDigits ds).map Int.ofNat := by
  cases ds with
  | nil => rfl
  | cons c ds =>
    have hc : c ≠ '-' := by
      rintro rfl
      exact absurd (h '-' List.mem_cons_self) (by decide)
    unfold readDecimal
    split
    · next heq => exact absurd (List.cons.inj heq).1 hc
    · rfl

theorem readDecimal_decimal (z : Int) : readDecimal (decimal z) = some z := by
  unfold decimal
  split
  · next hneg =>
    rw [readDecimal, readDigits_toDigits, Option.map_some]
    exact congrArg some (by rw [Int.ofNat_eq_natCast]; omega)
  · next hpos =>
    rw [readDecimal_digits _ fun c hc => isDigit_toDigits hc, readDigits_toDigits, Option.map_some]
    exact congrArg some (by rw [Int.ofNat_eq_natCast]; omega)

theorem length_decimal_le {z : Int} {k : Nat} (hk : 0 < k) (h : z.natAbs < 10 ^ k) :
    (decimal z).length ≤ k + 1 := by
  have hd := (Nat.length_toDigits_le_iff (by decide) hk).mpr h
  unfold decimal
  split
  · rw [List.length_cons]
    omega
  · omega

theorem mem_decimal {z : Int} {c : Char} (h : c ∈ decimal z) : c = '-' ∨ c.isDigit := by
  unfold decimal at h
  split at h
  · rcases List.mem_cons.mp h with rfl | h
    · exact Or.inl rfl
    · exact Or.inr (isDigit_toDigits h)
  · exact Or.inr (isDigit_toDigits h)

theorem not_mem_decimal {c : Char} (hs : c ≠ '-') (hd : ¬ c.isDigit) (z : Int) :
    c ∉ decimal z := by
  intro h
  rcases mem_decimal h with h | h
  · exact hs h
  · exact hd h

/-! ## hex digits -/

def hexDigits : List Char := "0123456789ABCDEF".toList

/-- a character below 256 as two upper-case digits -/
def hexPair (c : Char) : List Char :=
  [hexDigits.getD (c.toNat / 16) '0', hexDigits.getD (c.toNat % 16) '0']

theorem mem_hexPair {c x : Char} (h : x ∈ hexPair c) : x ∈ hexDigits := by
  have hd : ∀ n, hexDigits.getD n '0' ∈ hexDigits := by
    intro n
    by_cases hn : n < hexDigits.length
    · rw [List.getD_eq_getElem _ _ hn]
      exact List.getElem_mem hn
    · rw [List.getD_eq_default _ _ (Nat.le_of_not_lt hn)]
      decide
  rcases List.mem_pair.mp h with rfl | rfl
  · exact hd _
  · exact hd _

def hexValue (c : Char) : Option Nat := hexDigits.findIdx? (· = c)

def hexDecode : List Char → Option (List Char)
  | [] => some []
  | [_] => none
  | hi :: lo :: rest =>
    (hexValue hi).bind fun h => (hexValue lo).bind fun l =>
      (hexDecode rest).map (Char.ofNat (16 * h + l) :: ·)

theorem hexValue_digit : ∀ n < 16, hexValue (hexDigits.getD n '0') = some n := by decide

theorem length_flatMap_hexPair (cs : List Char) : (cs.flatMap hexPair).length = 2 * cs.length :=
  length_flatMap_const (f := hexPair) (w := 2) (fun _ => rfl) cs

theorem hexDecode_flatMap {cs : List Char} (h : ∀ c ∈ cs, c.toNat < 256) :
    hexDecode (cs.flatMap hexPair) = some cs := by
  induction cs with
  | nil => rfl
  | cons c cs ih =>
    have hc := h c List.mem_cons_self
    have hhi := hexValue_digit (c.toNat / 16) (by omega)
    have hlo := hexValue_digit (c.toNat % 16) (by omega)
    have hsum : 16 * (c.toNat / 16) + c.toNat % 16 = c.toNat := Nat.div_add_mod _ _
    rw [List.flatMap_cons, hexPair, List.cons_append, List.cons_append, List.nil_append,
      hexDecode, hhi, Option.bind_some, hlo, Option.bind_some,
      ih fun d hd => h d (List.mem_cons_of_mem _ hd), hsum, Char.ofNat_toNat]
    rfl

/-! ## fields -/

/-- the value in the first item that starts with `key` -/
def fieldOf (sep : Char) (key text : List Char) : Option (List Char) :=
  (text.splitOn sep).findSome? fun item =>
    if key <+: item then some (item.drop key.length) else none

theorem join_cons (sep : Char) (x y : List Char) (l : List (List Char)) :
    [sep].intercalate (x :: y :: l) = x ++ sep :: [sep].intercalate (y :: l) := by
  simp [List.intercalate]

theorem not_mem_join {c sep : Char} (hc : c ≠ sep) {items : List (List Char)}
    (h : ∀ item ∈ items, c ∉ item) : c ∉ [sep].intercalate items := by
  induction items with
  | nil => exact List.not_mem_nil
  | cons x items ih =>
    have hx := h x List.mem_cons_self
    have hi := ih fun item hi => h item (List.mem_cons_of_mem _ hi)
    cases items with
    | nil =>
      rw [List.intercalate_singleton]
      exact hx
    | cons y l =>
      rw [join_cons]
      intro hm
      rcases List.mem_append.mp hm with hm | hm
      · exact hx hm
      · rcases List.mem_cons.mp hm with hm | hm
        · exact hc hm
        · exact hi hm

theorem fieldOf_join {sep : Char} {items : List (List Char)} (hne : items ≠ [])
    (h : ∀ item ∈ items, sep ∉ item) (key : List Char) :
    fieldOf sep key ([sep].intercalate items) =
      items.findSome? fun item => if key <+: item then some (item.drop key.length) else none := by
  unfold fieldOf
  rw [List.splitOn_intercalate sep h hne]

end Text

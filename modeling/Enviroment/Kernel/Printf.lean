import Enviroment.Kernel.Types
import Enviroment.Lib.Text

/-!
# Formatted output of the kernel (`kservice.c`)

`rt_vsnprintf` steps a pointer over the buffer and stores a character only while the pointer is
below the end of the buffer; the terminating NUL is stored in any case.  So the text that it forms
and what it stores are two functions here.

* `printNumber`, `directive`, `vformat`   the text of a format and its arguments;
* `room`, `store`                         what of it reaches the buffer;
* `rtVsnprintf`, `rtSprintf`              what is stored, and the result;
* `vformat_copy`, `vformat_d`, `vformat_c`, `vformat_s`   the directives that the modem code uses;
* `store_room`                            with room for it, the text is stored as it is.
-/

namespace ENV

def nul : Char := Char.ofNat 0

/-- what a C string in a buffer reads as -/
def cString (buf : List Char) : List Char := buf.takeWhile (· ≠ nul)

/-- an argument: an `int`, or a string pointer -/
inductive Arg where
  | int (v : BitVec 32)
  | str (s : Option (List Char))

theorem cString_nul {text : List Char} (h : nul ∉ text) (z : List Char) :
    cString (text ++ nul :: z) = text := by
  have hpos : ∀ c ∈ text, decide (c ≠ nul) = true := by
    intro c hc
    refine decide_eq_true ?_
    rintro rfl
    exact h hc
  unfold cString
  rw [List.takeWhile_append_of_pos hpos, List.takeWhile_cons_of_neg (by decide), List.append_nil]

theorem nul_not_mem_cString (buf : List Char) : nul ∉ cString buf := by
  intro h
  have hall := List.all_eq_true.mp (List.all_takeWhile (l := buf) (p := fun c => c ≠ nul)) nul h
  exact absurd rfl (of_decide_eq_true hall)

/-! ## the text -/

/-- `ZEROPAD`, `SIGN`, … of a directive -/
structure Flags where
  zeropad : Bool
  sign : Bool
  plus : Bool
  space : Bool
  left : Bool
  special : Bool
  large : Bool

def Flags.none : Flags := ⟨false, false, false, false, false, false, false⟩

/-- the digits as `divide` gives them, lowest first; a base other than 10 counts as 16 -/
def digitLoop (base : Nat) (large : Bool) (num : Nat) : List Char :=
  if num = 0 then []
  else
    let b := if base = 10 then 10 else 16
    let d := Nat.digitChar (num % b)
    (if large then d.toUpper else d) :: digitLoop base large (num / b)
termination_by num
decreasing_by
  rename_i h
  split
  · exact Nat.div_lt_self (Nat.pos_of_ne_zero h) (by decide)
  · exact Nat.div_lt_self (Nat.pos_of_ne_zero h) (by decide)

/-- `while (n-- > 0) *buf++ = c` -/
def rep (c : Char) (n : Int) : List Char := List.replicate n.toNat c

/-- the sign in front of a number, and its digits in `tmp` -/
def signAndDigits (num : BitVec 32) (base : Nat) (type : Flags) : List Char × List Char :=
  let neg := type.sign && num.slt 0
  let sign : List Char :=
    if neg then ['-']
    else if type.sign && type.plus then ['+']
    else if type.sign && type.space then [' ']
    else []
  let num := if neg then -num else num
  (sign, if num = 0 then ['0'] else digitLoop base type.large num.toNat)

/-- sign and digits in a field of `s` characters -/
def layOut (sign tmp : List Char) (s precision : Int) (type : Flags) : List Char :=
  let zeropad := type.zeropad && !type.left
  let c := if zeropad then '0' else ' '
  let i : Int := tmp.length
  let prec := max i precision
  let size := s - prec
  -- blanks in front, unless zeros or left alignment are asked for
  let front := !(zeropad || type.left)
  let width := if sign ≠ [] ∧ 0 < size then size - 1 else size
  let blanks := if front then rep ' ' width else []
  let size := if front then min width 0 - 1 else size
  let size := if sign ≠ [] then size - 1 else size
  let pad := if type.left then [] else rep c size
  let size := if type.left then size else min size 0 - 1
  let body := if precision ≠ 0 then tmp.reverse else []
  blanks ++ sign ++ pad ++ rep '0' (prec - i) ++ body ++ rep ' ' size

/-- `print_number(buf, end, num, base, s, precision, type)` -/
def printNumber (num : BitVec 32) (base : Nat) (s precision : Int) (type : Flags) : List Char :=
  let r := signAndDigits num base type
  layOut r.1 r.2 s precision type

/-- the flags behind a `%` -/
def parseFlags : List Char → Flags → Flags × List Char
  | '-' :: fmt, flags => parseFlags fmt { flags with left := true }
  | '+' :: fmt, flags => parseFlags fmt { flags with plus := true }
  | ' ' :: fmt, flags => parseFlags fmt { flags with space := true }
  | '#' :: fmt, flags => parseFlags fmt { flags with special := true }
  | '0' :: fmt, flags => parseFlags fmt { flags with zeropad := true }
  | fmt, flags => (flags, fmt)

def skipAtoi : List Char → Nat → Nat × List Char
  | [], i => (i, [])
  | c :: fmt, i => if c.isDigit then skipAtoi fmt (i * 10 + (c.toNat - 48)) else (i, c :: fmt)

/-- `va_arg(args, int)`; `none` is an argument of the wrong kind, or none at all -/
def vaInt : List Arg → Option (BitVec 32 × List Arg)
  | .int v :: args => some (v, args)
  | _ => none

def vaStr : List Arg → Option (Option (List Char) × List Arg)
  | .str s :: args => some (s, args)
  | _ => none

/-- a directive: flags, field width, precision, qualifier, and the format behind them -/
structure Directive where
  flags : Flags
  width : Int
  precision : Int
  qualifier : Option Char
  fmt : List Char
  args : List Arg

def parseWidth (d : Directive) : Option Directive :=
  match d.fmt with
  | '*' :: fmt => (vaInt d.args).map fun r =>
      if r.1.slt 0 then
        { d with width := -r.1.toInt, flags := { d.flags with left := true }, fmt, args := r.2 }
      else { d with width := r.1.toInt, fmt, args := r.2 }
  | c :: _ =>
    if c.isDigit then
      let r := skipAtoi d.fmt 0
      some { d with width := r.1, fmt := r.2 }
    else some d
  | [] => some d

def parsePrecision (d : Directive) : Option Directive :=
  match d.fmt with
  | '.' :: '*' :: fmt => (vaInt d.args).map fun r =>
      { d with precision := max r.1.toInt 0, fmt, args := r.2 }
  | '.' :: fmt =>
    -- without digits the precision is -1, and then 0
    let r := skipAtoi fmt 0
    some { d with precision := r.1, fmt := r.2 }
  | _ => some d

def parseQualifier (d : Directive) : Directive :=
  match d.fmt with
  | 'h' :: fmt => { d with qualifier := some 'h', fmt }
  | 'l' :: fmt => { d with qualifier := some 'l', fmt }
  | _ => d

/-- an integer in the format of the directive -/
def Directive.number (d : Directive) (base : Nat) (flags : Flags) (fmt : List Char) :
    Option (List Char × List Char × List Arg) :=
  (vaInt d.args).map fun r =>
    let num :=
      if d.qualifier = some 'h' then
        if flags.sign then (r.1.setWidth 16).signExtend 32 else (r.1.setWidth 16).zeroExtend 32
      else r.1
    (printNumber num base d.width d.precision flags, fmt, r.2)

/-- what the letter of a directive prints, the format behind it and the arguments left -/
def Directive.print (d : Directive) : Option (List Char × List Char × List Arg) :=
  match d.fmt with
  | 'c' :: fmt => (vaInt d.args).map fun r =>
      let c := [Char.ofNat (r.1.toNat % 256)]
      let blanks := rep ' ' (d.width - 1)
      (if d.flags.left then c ++ blanks else blanks ++ c, fmt, r.2)
  | 's' :: fmt => (vaStr d.args).map fun r =>
      let s := r.1.getD "(NULL)".toList
      let len : Int := if 0 < d.precision ∧ d.precision < s.length then d.precision else s.length
      let text := s.take len.toNat
      let blanks := rep ' ' (d.width - len)
      (if d.flags.left then text ++ blanks else blanks ++ text, fmt, r.2)
  | 'p' :: fmt => (vaInt d.args).map fun r =>
      (if d.width = -1 then printNumber r.1 16 8 d.precision { d.flags with zeropad := true }
        else printNumber r.1 16 d.width d.precision d.flags, fmt, r.2)
  | '%' :: fmt => some (['%'], fmt, d.args)
  | 'o' :: fmt => d.number 8 d.flags fmt
  | 'X' :: fmt => d.number 16 { d.flags with large := true } fmt
  | 'x' :: fmt => d.number 16 d.flags fmt
  | 'd' :: fmt => d.number 10 { d.flags with sign := true } fmt
  | 'i' :: fmt => d.number 10 { d.flags with sign := true } fmt
  | 'u' :: fmt => d.number 10 d.flags fmt
  | c :: fmt => some (['%', c], fmt, d.args)
  | [] => some (['%'], [], d.args)

/-- a directive from the character behind its `%` on -/
def directive (fmt : List Char) (args : List Arg) : Option (List Char × List Char × List Arg) :=
  let r := parseFlags fmt Flags.none
  ((parseWidth ⟨r.1, -1, -1, none, r.2, args⟩).bind parsePrecision).bind fun d =>
    (parseQualifier d).print

/-! ## a directive uses up its part of the format -/

theorem length_parseFlags (fmt : List Char) (flags : Flags) :
    (parseFlags fmt flags).2.length ≤ fmt.length := by
  fun_induction parseFlags fmt flags with
  | case1 _ _ ih | case2 _ _ ih | case3 _ _ ih | case4 _ _ ih | case5 _ _ ih =>
    rw [List.length_cons]
    omega
  | case6 => exact Nat.le_refl _

theorem length_skipAtoi (fmt : List Char) (i : Nat) :
    (skipAtoi fmt i).2.length ≤ fmt.length := by
  fun_induction skipAtoi fmt i with
  | case1 => exact Nat.le_refl _
  | case2 c fmt i hc ih =>
    rw [List.length_cons]
    omega
  | case3 => exact Nat.le_refl _

theorem length_parseWidth {d d' : Directive} (h : parseWidth d = some d') :
    d'.fmt.length ≤ d.fmt.length := by
  unfold parseWidth at h
  split at h
  next fmt heq =>
    obtain ⟨r, -, rfl⟩ := Option.map_eq_some_iff.mp h
    rw [heq, List.length_cons]
    split
    · exact Nat.le_succ _
    · exact Nat.le_succ _
  next c fmt heq =>
    split at h
    · cases h
      exact length_skipAtoi _ _
    · cases h
      exact Nat.le_refl _
  next =>
    cases h
    exact Nat.le_refl _

theorem length_parsePrecision {d d' : Directive} (h : parsePrecision d = some d') :
    d'.fmt.length ≤ d.fmt.length := by
  unfold parsePrecision at h
  split at h
  next fmt heq =>
    obtain ⟨r, -, rfl⟩ := Option.map_eq_some_iff.mp h
    rw [heq, List.length_cons, List.length_cons]
    show fmt.length ≤ _
    omega
  next fmt _ heq =>
    cases h
    rw [heq, List.length_cons]
    have := length_skipAtoi fmt 0
    show (skipAtoi fmt 0).2.length ≤ _
    omega
  next =>
    cases h
    exact Nat.le_refl _

theorem length_parseQualifier (d : Directive) : (parseQualifier d).fmt.length ≤ d.fmt.length := by
  unfold parseQualifier
  split
  next fmt heq =>
    rw [heq]
    exact Nat.le_succ _
  next fmt heq =>
    rw [heq]
    exact Nat.le_succ _
  next => exact Nat.le_refl _

theorem length_number {d : Directive} {base : Nat} {flags : Flags} {fmt : List Char}
    {r : List Char × List Char × List Arg} (h : d.number base flags fmt = some r) :
    r.2.1 = fmt := by
  obtain ⟨v, -, rfl⟩ := Option.map_eq_some_iff.mp h
  rfl

theorem length_print {d : Directive} {r : List Char × List Char × List Arg} (h : d.print = some r) :
    r.2.1.length ≤ d.fmt.length := by
  have hmap : ∀ {α : Type} {o : Option α} {f : α → List Char} {g : α → List Arg} {c : Char}
      {fmt : List Char}, o.map (fun x => (f x, fmt, g x)) = some r → d.fmt = c :: fmt →
      r.2.1.length ≤ d.fmt.length := by
    rintro α o f g c fmt h heq
    obtain ⟨v, -, rfl⟩ := Option.map_eq_some_iff.mp h
    rw [heq]
    exact Nat.le_succ _
  have hnum : ∀ {base : Nat} {flags : Flags} {c : Char} {fmt : List Char},
      d.number base flags fmt = some r → d.fmt = c :: fmt → r.2.1.length ≤ d.fmt.length := by
    rintro base flags c fmt h heq
    rw [length_number h, heq]
    exact Nat.le_succ _
  unfold Directive.print at h
  split at h
  next fmt heq => exact hmap h heq
  next fmt heq => exact hmap h heq
  next fmt heq => exact hmap h heq
  next fmt heq =>
    cases h
    rw [heq]
    exact Nat.le_succ _
  next fmt heq => exact hnum h heq
  next fmt heq => exact hnum h heq
  next fmt heq => exact hnum h heq
  next fmt heq => exact hnum h heq
  next fmt heq => exact hnum h heq
  next fmt heq => exact hnum h heq
  next c fmt _ _ _ _ _ _ _ _ _ _ heq =>
    cases h
    rw [heq]
    exact Nat.le_succ _
  next heq =>
    cases h
    exact Nat.zero_le _

theorem length_directive {fmt : List Char} {args : List Arg} {r : List Char × List Char × List Arg}
    (h : directive fmt args = some r) : r.2.1.length ≤ fmt.length := by
  unfold directive at h
  obtain ⟨d, hd, hp⟩ := Option.bind_eq_some_iff.mp h
  obtain ⟨d', hw, hd'⟩ := Option.bind_eq_some_iff.mp hd
  calc r.2.1.length ≤ (parseQualifier d).fmt.length := length_print hp
    _ ≤ d.fmt.length := length_parseQualifier d
    _ ≤ d'.fmt.length := length_parsePrecision hd'
    _ ≤ _ := length_parseWidth hw
    _ ≤ fmt.length := length_parseFlags fmt _

/-- the text that `rt_vsnprintf` forms; `none` where an argument is missing or of another kind -/
def vformat (fmt : List Char) (args : List Arg) : Option (List Char) :=
  match fmt with
  | [] => some []
  | c :: fmt =>
    if c ≠ '%' then (vformat fmt args).map (c :: ·)
    else
      match _h : directive fmt args with
      | none => none
      | some r => (vformat r.2.1 r.2.2).map (r.1 ++ ·)
termination_by fmt.length
decreasing_by
  · exact Nat.lt_succ_self _
  · exact Nat.lt_succ_of_le (length_directive _h)

/-! ## the buffer -/

/-- how many characters `rt_vsnprintf` believes to have: the end wraps around if it must -/
def room (buf size : BitVec 32) : Nat :=
  if buf + size < buf then (-1 - buf).toNat else size.toNat

/-- what is stored from `buf` on: the text while there is room, and a NUL in any case -/
def store (cap : Nat) (text : List Char) : List Char :=
  if cap = 0 then []
  else if text.length < cap then text ++ [nul]
  else text.take (cap - 1) ++ [nul]

def rtVsnprintf (buf size : BitVec 32) (fmt : List Char) (args : List Arg) :
    Option (List Char × Nat) :=
  (vformat fmt args).map fun text => (store (room buf size) text, text.length)

/-- `rt_sprintf(buf, fmt, ...)`: the characters stored from `buf` on -/
def rtSprintf (buf : BitVec 32) (fmt : List Char) (args : List Arg) : Option (List Char) :=
  (rtVsnprintf buf (-1) fmt args).map (·.1)

/-! ## the directives of the modem code -/

section
variable (fmt : List Char) (args : List Arg)

theorem vformat_nil : vformat [] args = some [] := by
  rw [vformat]

theorem vformat_copy {text : List Char} (h : '%' ∉ text) :
    vformat (text ++ fmt) args = (vformat fmt args).map (text ++ ·) := by
  induction text with
  | nil => exact Option.map_id'.symm
  | cons c text ih =>
    obtain ⟨hc, ht⟩ := not_or.mp (List.mem_cons.not.mp h)
    rw [List.cons_append, vformat, if_pos (Ne.symm hc), ih ht, Option.map_map]
    rfl

theorem vformat_end {text : List Char} (h : '%' ∉ text) : vformat text [] = some text := by
  have e := vformat_copy [] [] h
  rw [List.append_nil, vformat_nil] at e
  exact e.trans (congrArg some (List.append_nil text))

theorem vformat_directive {r : List Char × List Char × List Arg} (h : directive fmt args = some r) :
    vformat ('%' :: fmt) args = (vformat r.2.1 r.2.2).map (r.1 ++ ·) := by
  rw [vformat, if_neg (by decide)]
  split
  next heq => cases heq.symm.trans h
  next heq => rw [Option.some.inj (heq.symm.trans h)]

theorem vformat_c (v : BitVec 32) :
    vformat ('%' :: 'c' :: fmt) (.int v :: args) =
      (vformat fmt args).map ([Char.ofNat (v.toNat % 256)] ++ ·) := by
  have h : directive ('c' :: fmt) (.int v :: args) =
      some ([Char.ofNat (v.toNat % 256)], fmt, args) := rfl
  exact vformat_directive _ _ h

/-- a byte survives `va_arg(args, int)` and the cast to a byte -/
theorem char_of_byte {c : Char} (h : c.toNat < 256) :
    Char.ofNat ((BitVec.ofNat 32 c.toNat).toNat % 256) = c := by
  rw [BitVec.toNat_ofNat, Nat.mod_eq_of_lt (a := c.toNat) (by omega), Nat.mod_eq_of_lt h,
    Char.ofNat_toNat]

theorem vformat_s (s : List Char) :
    vformat ('%' :: 's' :: fmt) (.str (some s) :: args) = (vformat fmt args).map (s ++ ·) := by
  have h : directive ('s' :: fmt) (.str (some s) :: args) =
      some (rep ' ' (-1 - s.length) ++ s.take (s.length : Int).toNat, fmt, args) := rfl
  rw [vformat_directive _ _ h]
  have hb : rep ' ' (-1 - s.length) = [] := by
    unfold rep
    rw [show (-1 - (s.length : Int)).toNat = 0 by omega]
    rfl
  rw [hb, Int.toNat_natCast, List.take_length]
  rfl

theorem vformat_d_number (v : BitVec 32) :
    vformat ('%' :: 'd' :: fmt) (.int v :: args) =
      (vformat fmt args).map
        (printNumber v 10 (-1) (-1) { Flags.none with sign := true } ++ ·) := by
  have h : directive ('d' :: fmt) (.int v :: args) =
      some (printNumber v 10 (-1) (-1) { Flags.none with sign := true }, fmt, args) := rfl
  exact vformat_directive _ _ h

end

/-- the loop over `divide` gives the decimal digits, lowest first -/
theorem digitLoop_ten (n : Nat) (h : 0 < n) :
    (digitLoop 10 false n).reverse = Nat.toDigits 10 n := by
  induction n using Nat.strong_induction_on with
  | _ n ih =>
    rw [digitLoop, if_neg (by omega)]
    simp only [↓reduceIte, Bool.false_eq_true, List.reverse_cons]
    by_cases hn : n < 10
    · rw [show n / 10 = 0 by omega, digitLoop, if_pos rfl, Nat.toDigits_of_lt_base hn,
        Nat.mod_eq_of_lt hn]
      rfl
    · rw [ih (n / 10) (by omega) (by omega),
        Nat.toDigits_of_base_le (n := n) (by decide) (by omega)]

theorem rep_nonpos (c : Char) {n : Int} (h : n ≤ 0) : rep c n = [] := by
  unfold rep
  rw [Int.toNat_of_nonpos h]
  rfl

theorem layOut_bare (sign tmp : List Char) :
    layOut sign tmp (-1) (-1) { Flags.none with sign := true } = sign ++ tmp.reverse := by
  have hmax : max (tmp.length : Int) (-1) = tmp.length := by omega
  have hw : ∀ w : Int, w ≤ -1 → rep ' ' w = [] := fun w hw => rep_nonpos _ (by omega)
  have hw' : (if sign ≠ [] ∧ 0 < -1 - (tmp.length : Int) then -1 - (tmp.length : Int) - 1
      else -1 - (tmp.length : Int)) = -1 - (tmp.length : Int) := if_neg (by omega)
  unfold layOut
  simp only [Flags.none, hmax, hw', Bool.false_and, Bool.or_self, Bool.not_false, ↓reduceIte,
    Bool.false_eq_true, Int.sub_self, rep_nonpos _ (Int.le_refl 0)]
  have hs : ∀ p : Prop, ∀ _ : Decidable p,
      (if p then min (-1 - (tmp.length : Int)) 0 - 1 - 1
        else min (-1 - (tmp.length : Int)) 0 - 1) ≤ -1 := by
    intro p _
    split <;> omega
  rw [hw _ (by omega), hw _ (hs _ _), hw _ (by have := hs (sign ≠ []) inferInstance; omega)]
  simp

/-- a number without flags, width and precision is its signed decimal -/
theorem printNumber_signed (v : BitVec 32) :
    printNumber v 10 (-1) (-1) { Flags.none with sign := true } = Text.decimal v.toInt := by
  have hv := BitVec.toInt_eq_toNat_cond v
  have hlt := v.isLt
  have hslt : v.slt 0 = decide (v.toInt < 0) := rfl
  unfold printNumber
  rw [layOut_bare]
  unfold signAndDigits Text.decimal
  simp only [Flags.none, Bool.true_and, Bool.false_eq_true, ↓reduceIte, hslt,
    decide_eq_true_eq]
  by_cases hneg : v.toInt < 0
  · have habs : (-v).toNat = v.toInt.natAbs := by
      rw [BitVec.toNat_neg]
      split at hv <;> omega
    have hz : ¬ -v = 0 := by
      intro h0
      rw [h0] at habs
      have : (0 : BitVec 32).toNat = 0 := rfl
      omega
    simp only [if_pos hneg, if_neg hz]
    rw [digitLoop_ten _ (by omega), habs]
    rfl
  · have habs : v.toNat = v.toInt.natAbs := by split at hv <;> omega
    simp only [if_neg hneg]
    by_cases hz : v = 0
    · rw [hz]
      rfl
    · have hpos : 0 < v.toNat := by
        refine Nat.pos_of_ne_zero fun h0 => hz ?_
        exact BitVec.eq_of_toNat_eq h0
      rw [if_neg hz, digitLoop_ten _ hpos, habs]
      rfl

theorem vformat_d (fmt : List Char) (args : List Arg) (v : BitVec 32) :
    vformat ('%' :: 'd' :: fmt) (.int v :: args) =
      (vformat fmt args).map (Text.decimal v.toInt ++ ·) := by
  rw [vformat_d_number, printNumber_signed]

/-! ## a text that fits -/

theorem store_room {cap : Nat} {text : List Char} (h : text.length < cap) :
    store cap text = text ++ [nul] := by
  unfold store
  rw [if_neg (by omega), if_pos h]

theorem cString_store {text : List Char} (h : nul ∉ text) : cString (text ++ [nul]) = text :=
  cString_nul h []

theorem toNat_neg_one : (-1 : BitVec 32).toNat = 2 ^ 32 - 1 := by decide

/-- the size `(rt_size_t) -1` lets `rt_sprintf` use the memory behind `buf` up to its end -/
theorem room_rest (buf : BitVec 32) : room buf (-1) = 2 ^ 32 - 1 - buf.toNat := by
  have hlt := buf.isLt
  have hadd := BitVec.toNat_add buf (-1)
  have hsub := BitVec.toNat_sub (-1) buf
  rw [toNat_neg_one] at hadd hsub
  unfold room
  by_cases h : buf + -1 < buf
  · rw [if_pos h, hsub]
    clear hadd hsub h
    omega
  · have h' : ¬ (buf + -1).toNat < buf.toNat := fun x => h x
    rw [hadd] at h'
    rw [if_neg h, toNat_neg_one]
    clear hadd hsub h
    omega

/-- `rt_sprintf` into a buffer of `n` characters, of which the text leaves one free -/
theorem rtSprintf_fits {buf : BitVec 32} {fmt text : List Char} {args : List Arg} {n : Nat}
    (ht : vformat fmt args = some text) (hb : buf.toNat + n ≤ 2 ^ 32) (hn : text.length + 2 ≤ n) :
    rtSprintf buf fmt args = some (text ++ [nul]) := by
  unfold rtSprintf rtVsnprintf
  rw [ht, Option.map_some, Option.map_some, store_room (by rw [room_rest]; omega)]

end ENV

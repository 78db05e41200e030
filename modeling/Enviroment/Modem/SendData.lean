import Enviroment.Modem.Commands

/-!
# Data in hex digits (`NB_IOT_SendData`)

Digits and points are sent as two hex digits each, in an array of 100 characters; every other
character is skipped.

* `char2ASCII`, `sendHeader`, `sendLoop`, `nbIotSendData`   the code;
* `sendText`         the command that is intended;
* `decoded`          what a reader finds behind the leading `00`;
* `SendsRight`       numeric data are encoded whole, and no data arrive as others;
* `sendLoop_eq`, `sendLoop_full`   what the loop leaves if the data fit, and if they do not;
* `sendsRight_iff`   which data are sent right.
-/

namespace ENV

open Text

/-! ## the code -/

/-- `Char2ASCII(ch)` -/
def char2ASCII : Char → Char × Char
  | '0' => ('3', '0')
  | '1' => ('3', '1')
  | '2' => ('3', '2')
  | '3' => ('3', '3')
  | '4' => ('3', '4')
  | '5' => ('3', '5')
  | '6' => ('3', '6')
  | '7' => ('3', '7')
  | '8' => ('3', '8')
  | '9' => ('3', '9')
  | '.' => ('2', 'E')
  | _ => ('0', '0')

/-- `char cmd[100]={"AT+NMGS="}` -/
def nmgs : List Char := "AT+NMGS=".toList ++ List.replicate 92 nul

/-- an `int` stored as a character -/
def charOf (v : BitVec 32) : Char := Char.ofNat (v.toNat % 256)

/-- the array in front of the loop, and the index at which the loop starts -/
def sendHeader (length : BitVec 32) : List Char × Nat :=
  let a := charOf (length.sdiv 10 + 48)
  let b := charOf (length.srem 10 + 48)
  if a = '0' then ((((nmgs.set 8 b).set 9 ',').set 10 '0').set 11 '0', 12)
  else (((((nmgs.set 8 a).set 9 b).set 10 ',').set 11 '0').set 12 '0', 13)

/-- `cmd[i]=c`; `none` is an index behind the array -/
def assign (cmd : List Char) (i : Nat) (c : Char) : Option (List Char) :=
  if i < cmd.length then some (cmd.set i c) else none

/-- the loop over the characters in front of the NUL -/
def sendLoop : Nat → List Char → List Char → Option (List Char)
  | _, [], cmd => some cmd
  | i, ch :: arr, cmd =>
    if i < 100 then
      let c := char2ASCII ch
      if c.1 = '0' then sendLoop (i - 2 + 2) arr cmd
      else
        (assign cmd i c.1).bind fun cmd => (assign cmd (i + 1) c.2).bind fun cmd =>
          sendLoop (i + 2) arr cmd
    else some cmd

def sendBuild (arr : List Char) (length : BitVec 32) : Option (List Char) :=
  sendLoop (sendHeader length).2 arr (sendHeader length).1

def sendResult : Answer → RtErr
  | .noMemory => rtError
  | .returned i resp =>
    if i ≠ rtEok then rtError
    else if (atRespGetLineByKw resp errorLine).isSome then rtError
    else rtEok

/-- what a call does; without `cmd`, a character was stored behind the array -/
structure SendCall where
  cmd : Option (List Char)
  wire : Wire
  result : RtErr

/-- `NB_IOT_SendData(arr, length)` -/
def nbIotSendData (arr : List Char) (length : BitVec 32) (fate : Fate) : SendCall :=
  let cmd := sendBuild arr length
  ⟨cmd, fate.wireOf (cmd.getD []), sendResult fate.answer⟩

/-! ## the statement -/

/-- a digit or a point -/
def decimalChar (c : Char) : Bool := c.isDigit || c == '.'

/-- the command in front of the data -/
def headText (length : Nat) : List Char :=
  "AT+NMGS=".toList ++ Nat.toDigits 10 length ++ [',', '0', '0']

def sendText (length : Nat) (arr : List Char) : List Char := headText length ++ arr.flatMap hexPair

/-- the data of a command, behind `,00` -/
def decoded (cmd : List Char) : Option (List Char) :=
  hexDecode ((cmd.dropWhile (· ≠ ',')).drop 3)

/-- digits and points are encoded in the array as they should be; other data are not sent, or they
arrive as they are -/
structure SendsRight (arr : List Char) (length : BitVec 32) (c : SendCall) : Prop where
  decimal : arr.all decimalChar → ∃ cmd, c.cmd = some cmd ∧ cmd.length = 100 ∧ nul ∈ cmd ∧
    cString cmd = sendText length.toNat arr ∧ decoded (cString cmd) = some arr
  other : ¬ arr.all decimalChar → c.wire = .silent ∨
    ∃ sent, c.wire = .bytes (sent ++ crlf) ∧ decoded sent = some arr

/-- up to 43 digits and points, or a call that sends nothing -/
def Sendable (arr : List Char) (fate : Fate) : Prop :=
  if arr.all decimalChar then arr.length ≤ 43 else fate.Silent

/-! ## characters -/

theorem forall_decimalChar {P : Char → Prop}
    (h : ∀ n, n < 58 → 46 ≤ n → n ≠ 47 → P (Char.ofNat n)) {c : Char} (hc : decimalChar c) :
    P c := by
  have hn : c.toNat < 58 ∧ 46 ≤ c.toNat ∧ c.toNat ≠ 47 := by
    rcases Bool.or_eq_true_iff.mp hc with hd | hp
    · have hr : 48 ≤ c.toNat ∧ c.toNat ≤ 57 := Char.isDigit_iff_toNat.mp hd
      omega
    · rw [eq_of_beq hp]
      decide
  have := h c.toNat hn.1 hn.2.1 hn.2.2
  rwa [Char.ofNat_toNat] at this

theorem char2ASCII_decimal {c : Char} (h : decimalChar c) :
    (char2ASCII c).1 ≠ '0' ∧ hexPair c = [(char2ASCII c).1, (char2ASCII c).2] :=
  forall_decimalChar (P := fun c => (char2ASCII c).1 ≠ '0' ∧
    hexPair c = [(char2ASCII c).1, (char2ASCII c).2]) (by decide +kernel) h

theorem decimalChar_lt {c : Char} (h : decimalChar c) : c.toNat < 256 :=
  forall_decimalChar (P := fun c => c.toNat < 256) (by decide +kernel) h

theorem char2ASCII_other {c : Char} (h : ¬ decimalChar c) : char2ASCII c = ('0', '0') := by
  unfold char2ASCII
  split
  case h_12 => rfl
  all_goals exact absurd (by decide) h

/-! ## the loop -/

/-- the digits and points in hex -/
def payload (arr : List Char) : List Char := (arr.filter decimalChar).flatMap hexPair

theorem payload_other {c : Char} (h : ¬ decimalChar c) (arr : List Char) :
    payload (c :: arr) = payload arr := by
  unfold payload
  rw [List.filter_cons_of_neg h]

theorem payload_decimal {c : Char} (h : decimalChar c) (arr : List Char) :
    payload (c :: arr) = hexPair c ++ payload arr := by
  unfold payload
  rw [List.filter_cons_of_pos h, List.flatMap_cons]

theorem not_mem_payload {x : Char} (h : x ∉ hexDigits) (arr : List Char) : x ∉ payload arr := by
  intro hm
  obtain ⟨c, -, hx⟩ := List.mem_flatMap.mp hm
  exact h (mem_hexPair hx)

theorem assign_pad (pre : List Char) (c : Char) (n : Nat) :
    assign (pre ++ List.replicate (n + 1) nul) pre.length c =
      some (pre ++ [c] ++ List.replicate n nul) := by
  unfold assign
  rw [if_pos, set_pad, List.append_assoc, List.singleton_append]
  rw [List.length_append, List.length_replicate]
  omega

theorem sendLoop_other {c : Char} (h : ¬ decimalChar c) {i : Nat} (h2 : 2 ≤ i) (hi : i < 100)
    (arr cmd : List Char) : sendLoop i (c :: arr) cmd = sendLoop i arr cmd := by
  rw [sendLoop, if_pos hi, char2ASCII_other h]
  show sendLoop (i - 2 + 2) arr cmd = _
  rw [Nat.sub_add_cancel h2]

theorem sendLoop_decimal {c : Char} (h : decimalChar c) {pre : List Char} {n : Nat}
    (hn : pre.length + (n + 2) = 100) (arr : List Char) :
    sendLoop pre.length (c :: arr) (pre ++ List.replicate (n + 2) nul) =
      sendLoop (pre ++ hexPair c).length arr (pre ++ hexPair c ++ List.replicate n nul) := by
  obtain ⟨hne, hpair⟩ := char2ASCII_decimal h
  have hlen : pre.length + 1 = (pre ++ [(char2ASCII c).1]).length := by
    rw [List.length_append, List.length_singleton]
  rw [sendLoop, if_pos (by omega)]
  simp only
  rw [if_neg hne, assign_pad, Option.bind_some, hlen, assign_pad, Option.bind_some, hpair]
  simp only [List.length_append, List.length_cons, List.length_nil, List.append_assoc,
    List.cons_append, List.nil_append]

/-- **Data that leave one character for the NUL are encoded whole.** -/
theorem sendLoop_eq {arr pre : List Char} {n : Nat} (h2 : 2 ≤ pre.length)
    (hn : pre.length + n = 100) (hfit : (payload arr).length < n) :
    sendLoop pre.length arr (pre ++ List.replicate n nul) =
      some (pre ++ payload arr ++ List.replicate (n - (payload arr).length) nul) := by
  induction arr generalizing pre n with
  | nil => rw [sendLoop]; exact congrArg (fun l => some (l ++ _)) (List.append_nil pre).symm
  | cons c arr ih =>
    by_cases hc : decimalChar c
    · rw [payload_decimal hc, List.length_append] at hfit
      have hpair : (hexPair c).length = 2 := rfl
      obtain ⟨m, rfl⟩ : ∃ m, n = m + 2 := ⟨n - 2, by omega⟩
      rw [sendLoop_decimal hc hn, ih, payload_decimal hc, List.length_append, hpair]
      · rw [List.append_assoc pre, show m + 2 - (2 + (payload arr).length) =
          m - (payload arr).length by omega]
      · rw [List.length_append]
        omega
      · rw [List.length_append]
        omega
      · omega
    · rw [payload_other hc] at hfit ⊢
      rw [sendLoop_other hc h2 (by omega)]
      exact ih h2 hn hfit

/-- longer data overrun the array, or leave no NUL in it -/
theorem sendLoop_full {arr pre cmd : List Char} {n : Nat} (h2 : 2 ≤ pre.length)
    (hn : pre.length + n = 100) (hfull : n ≤ (payload arr).length) (hpre : nul ∉ pre)
    (h : sendLoop pre.length arr (pre ++ List.replicate n nul) = some cmd) : nul ∉ cmd := by
  induction arr generalizing pre n with
  | nil =>
    obtain rfl : n = 0 := Nat.le_zero.mp hfull
    rw [sendLoop, List.replicate_zero, List.append_nil] at h
    exact Option.some.inj h ▸ hpre
  | cons c arr ih =>
    match n, hn with
    | 0, hn =>
      rw [sendLoop, if_neg (by omega), List.replicate_zero, List.append_nil] at h
      exact Option.some.inj h ▸ hpre
    | 1, hn =>
      by_cases hc : decimalChar c
      · -- the first digit is stored at 99, the second one behind the array
        obtain ⟨hne, -⟩ := char2ASCII_decimal hc
        rw [sendLoop, if_pos (by omega)] at h
        simp only at h
        rw [if_neg hne, assign_pad, Option.bind_some, assign, if_neg ?_] at h
        · cases h
        · rw [List.length_append, List.length_append]
          exact Nat.lt_irrefl _
      · rw [payload_other hc] at hfull
        rw [sendLoop_other hc h2 (by omega)] at h
        exact ih h2 hn hfull hpre h
    | m + 2, hn =>
      by_cases hc : decimalChar c
      · have hnul : nul ∉ hexPair c := fun hm => absurd (mem_hexPair hm) (by decide)
        rw [payload_decimal hc, List.length_append] at hfull
        have hpair : (hexPair c).length = 2 := rfl
        rw [sendLoop_decimal hc hn] at h
        refine ih ?_ ?_ ?_ ?_ h
        · rw [List.length_append]
          omega
        · rw [List.length_append]
          omega
        · omega
        · exact fun hm => (List.mem_append.mp hm).elim hpre hnul
      · rw [payload_other hc] at hfull
        rw [sendLoop_other hc h2 (by omega)] at h
        exact ih h2 hn hfull hpre h

/-! ## the header -/

theorem sendHeader_ofNat : ∀ k < 100, sendHeader (BitVec.ofNat 32 k) =
    (headText k ++ List.replicate (100 - (headText k).length) nul, (headText k).length) := by
  decide +kernel

theorem length_headText : ∀ k < 100, (headText k).length = 12 ∨ (headText k).length = 13 := by
  decide +kernel

theorem mem_headText {k : Nat} {c : Char} (h : c ∈ headText k) :
    c ∈ "AT+NMGS=,00".toList ∨ c.isDigit := by
  unfold headText at h
  rcases List.mem_append.mp h with h | h
  · rcases List.mem_append.mp h with h | h
    · exact Or.inl (List.mem_append_left _ h)
    · exact Or.inr (isDigit_toDigits h)
  · exact Or.inl (List.mem_append_right "AT+NMGS=".toList h)

theorem not_mem_headText {k : Nat} {c : Char} (h : c ∉ "AT+NMGS=,00".toList) (hd : ¬ c.isDigit) :
    c ∉ headText k := fun hm => (mem_headText hm).elim h hd

theorem decoded_headText (k : Nat) (data : List Char) :
    decoded (headText k ++ data) = hexDecode data := by
  have hpre : ∀ c ∈ "AT+NMGS=".toList ++ Nat.toDigits 10 k, decide (c ≠ ',') = true := by
    rintro c hc
    refine decide_eq_true ?_
    rintro rfl
    rcases List.mem_append.mp hc with hc | hc
    · exact absurd hc (by decide)
    · exact absurd (isDigit_toDigits hc) (by decide)
  unfold decoded headText
  rw [List.append_assoc, List.dropWhile_append_of_pos hpre]
  rfl

/-! ## the command -/

theorem sendBuild_fits {arr : List Char} {length : BitVec 32} (hl : length.toNat ≤ 99)
    (hfit : (arr.filter decimalChar).length ≤ 43) :
    ∃ cmd, sendBuild arr length = some cmd ∧ cmd.length = 100 ∧ nul ∈ cmd ∧
      cString cmd = headText length.toNat ++ payload arr := by
  have hk : length = BitVec.ofNat 32 length.toNat := by
    rw [BitVec.ofNat_toNat, BitVec.setWidth_eq]
  generalize length.toNat = k at hl hk
  have hhead := length_headText k (by omega)
  have hlen : (payload arr).length ≤ 86 := by
    unfold payload
    rw [length_flatMap_hexPair]
    omega
  have hloop : sendLoop (headText k).length arr
      (headText k ++ List.replicate (100 - (headText k).length) nul) = _ :=
    sendLoop_eq (by omega) (by omega) (by omega)
  have hnul : nul ∉ headText k ++ payload arr := fun hm => (List.mem_append.mp hm).elim
    (not_mem_headText (by decide) (by decide)) (not_mem_payload (by decide) arr)
  refine ⟨headText k ++ payload arr ++
    List.replicate (100 - (headText k).length - (payload arr).length) nul, ?_, ?_, ?_, ?_⟩
  · unfold sendBuild
    rw [hk, sendHeader_ofNat k (by omega)]
    exact hloop
  · rw [List.length_append, List.length_append, List.length_replicate]
    omega
  · refine List.mem_append_right _ (List.mem_replicate.mpr ⟨?_, rfl⟩)
    omega
  · exact cString_pad hnul (by omega)

theorem sendBuild_full {arr cmd : List Char} {length : BitVec 32} (hl : length.toNat ≤ 99)
    (hfull : 43 < (arr.filter decimalChar).length) (h : sendBuild arr length = some cmd) :
    nul ∉ cmd := by
  have hk : length = BitVec.ofNat 32 length.toNat := by
    rw [BitVec.ofNat_toNat, BitVec.setWidth_eq]
  generalize length.toNat = k at hl hk
  have hhead := length_headText k (by omega)
  have hlen : 88 ≤ (payload arr).length := by
    unfold payload
    rw [length_flatMap_hexPair]
    omega
  unfold sendBuild at h
  rw [hk, sendHeader_ofNat k (by omega)] at h
  exact sendLoop_full (by omega) (by omega) (by omega)
    (not_mem_headText (by decide) (by decide)) h

theorem decoded_payload (k : Nat) (arr : List Char) :
    decoded (headText k ++ payload arr) = some (arr.filter decimalChar) := by
  rw [decoded_headText]
  exact hexDecode_flatMap fun c hc => decimalChar_lt (List.mem_filter.mp hc).2

theorem wire_fits {arr : List Char} {length : BitVec 32} (hl : length.toNat ≤ 99)
    (hfit : (arr.filter decimalChar).length ≤ 43) (i : RtErr) (resp : Resp) :
    (nbIotSendData arr length (.printed i resp)).wire =
      .bytes (headText length.toNat ++ payload arr ++ crlf) := by
  obtain ⟨cmd, hcmd, -, hnul, hstr⟩ := sendBuild_fits hl hfit
  have hhead := length_headText length.toNat (by omega)
  have hwire : (nbIotSendData arr length (.printed i resp)).wire = Wire.ofFormat (cString cmd) := by
    show (Fate.printed i resp).wireOf ((sendBuild arr length).getD []) = _
    rw [hcmd]
    exact wireOf_ended hnul i resp
  rw [hwire, hstr, ofFormat_eq_bytes]
  refine atVprintfln_of_not_mem (fun hm => (List.mem_append.mp hm).elim
    (not_mem_headText (by decide) (by decide)) (not_mem_payload (by decide) arr)) ?_
  unfold payload
  rw [List.length_append, length_flatMap_hexPair]
  unfold atCmdMaxLen
  omega

theorem wire_full {arr : List Char} {length : BitVec 32} (hl : length.toNat ≤ 99)
    (hfull : 43 < (arr.filter decimalChar).length) (i : RtErr) (resp : Resp) :
    (nbIotSendData arr length (.printed i resp)).wire = .wild := by
  refine wireOf_wild ?_ i resp
  cases h : sendBuild arr length with
  | none => exact List.not_mem_nil
  | some cmd => exact sendBuild_full hl hfull h

/-- digits and points are encoded in the array if there are not more than 43 of them -/
theorem sendsRight_decimal {arr : List Char} (hdec : arr.all decimalChar) {length : BitVec 32}
    (hl : length.toNat ≤ 99) (fate : Fate) :
    SendsRight arr length (nbIotSendData arr length fate) ↔ arr.length ≤ 43 := by
  have hfilter : arr.filter decimalChar = arr :=
    List.filter_eq_self.mpr (List.all_eq_true.mp hdec)
  constructor
  · intro h
    obtain ⟨cmd, hcmd, -, hnul, -⟩ := h.decimal hdec
    by_contra hlong
    exact sendBuild_full hl (by rw [hfilter]; omega) hcmd hnul
  · intro hshort
    obtain ⟨cmd, hcmd, hlen, hnul, hstr⟩ := sendBuild_fits hl (by rw [hfilter]; exact hshort)
    refine ⟨fun _ => ⟨cmd, hcmd, hlen, hnul, ?_, ?_⟩, fun h => absurd hdec h⟩
    · rw [hstr]
      unfold payload sendText
      rw [hfilter]
    · rw [hstr, decoded_payload, hfilter]

/-- what is decoded of other data lacks the characters that were skipped -/
theorem sendsRight_other {arr : List Char} (hdec : ¬ arr.all decimalChar) {length : BitVec 32}
    (hl : length.toNat ≤ 99) (fate : Fate) :
    SendsRight arr length (nbIotSendData arr length fate) ↔ fate.Silent := by
  have hne : arr.filter decimalChar ≠ arr := fun e =>
    hdec (List.all_eq_true.mpr (List.filter_eq_self.mp e))
  constructor
  · intro h
    cases fate with
    | noMemory => trivial
    | refused err herr resp => trivial
    | printed i resp =>
      exfalso
      by_cases hfit : (arr.filter decimalChar).length ≤ 43
      · have hwire := wire_fits hl hfit i resp
        rcases h.other hdec with hs | ⟨sent, hs, hdecoded⟩
        · cases hwire.symm.trans hs
        · obtain rfl : headText length.toNat ++ payload arr = sent :=
            List.append_cancel_right (Wire.bytes.inj (hwire.symm.trans hs))
          rw [decoded_payload] at hdecoded
          exact hne (Option.some.inj hdecoded)
      · have hwire := wire_full hl (Nat.lt_of_not_le hfit) i resp
        rcases h.other hdec with hs | ⟨sent, hs, -⟩
        · cases hwire.symm.trans hs
        · cases hwire.symm.trans hs
  · intro hs
    exact ⟨fun h => absurd h hdec, fun _ => Or.inl (wireOf_silent hs _)⟩

/-- **Data are sent right exactly if** they are up to 43 digits and points, or nothing is sent of
other data. -/
theorem sendsRight_iff (arr : List Char) (length : BitVec 32) (hl : length.toNat ≤ 99)
    (fate : Fate) : SendsRight arr length (nbIotSendData arr length fate) ↔ Sendable arr fate := by
  unfold Sendable
  split
  next hdec => exact sendsRight_decimal hdec hl fate
  next hdec => exact sendsRight_other hdec hl fate

/-- a temperature of 25.6 -/
theorem sendsRight_iff_reading :
    SendsRight "25.6".toList 4
        (nbIotSendData "25.6".toList 4 (.printed rtEok ⟨512, 0, [], 0⟩)) ↔
      Sendable "25.6".toList (.printed rtEok ⟨512, 0, [], 0⟩) :=
  sendsRight_iff "25.6".toList 4 (by decide) (.printed rtEok ⟨512, 0, [], 0⟩)

/-- a negative reading arrives as a positive one, and 44 digits fill the array without a NUL, or are
stored beyond it -/
theorem sendsRight_fails :
    ¬ SendsRight "-5.0".toList 4 (nbIotSendData "-5.0".toList 4 (.printed rtEok ⟨512, 0, [], 0⟩)) ∧
    ¬ SendsRight (List.replicate 44 '1') 4 (nbIotSendData (List.replicate 44 '1') 4 .noMemory) ∧
    (nbIotSendData (List.replicate 44 '1') 44 .noMemory).cmd = none := by
  have hl : (4 : BitVec 32).toNat ≤ 99 := by decide
  have hall : (List.replicate 44 '1').all decimalChar := by decide +kernel
  refine ⟨fun h => ?_, fun h => ?_, by decide +kernel⟩
  · exact (sendsRight_other (by decide) hl _).mp h
  · have hlen := (sendsRight_decimal hall hl _).mp h
    rw [List.length_replicate] at hlen
    exact absurd hlen (by decide)

end ENV

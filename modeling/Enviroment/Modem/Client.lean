import Mathlib.Data.List.Infix
import Mathlib.Data.Nat.Find
import Enviroment.Kernel.Printf

/-!
# The AT client (`at_client.c`) and the notifications of the modem (`NB_IOT.c`)

* `Urc`, `urcTable`, `getUrcObj`   the table of notifications and its test of the receive buffer;
* `readLine`                       `at_recv_readline` on the characters that have arrived;
* `Resp`, `respond`                a response object, and what a line of a response does to it;
* `Resp.line`                      `at_resp_get_line`;
* `readLine_ended`                 a line is read up to its first end;
* `readLine_first`                 that is the first prefix that ends it, if the line fits;
* `readLine_whole`                 the line itself, if no prefix of it does.

The end sign of the client is never set in this program, so the newline and the table are the only
ends of a line.
-/

namespace ENV

/-! ## notifications -/

inductive Urc where
  | nnmi
  | inited
  | connect
  | discon
  | httpHeader
  | httpContent
deriving DecidableEq

def crlf : List Char := ['\r', '\n']

/-- `cmd_prefix` -/
def Urc.pre : Urc → List Char
  | .nnmi => "+NNMI:".toList
  | .inited => "M5310-A".toList
  | .connect => "CONNECT OK".toList
  | .discon => "+HTTPDISCON:".toList
  | .httpHeader => "+HTTPNMIH:".toList
  | .httpContent => "+HTTPNMIC:".toList

/-- `cmd_suffix` -/
def Urc.suf : Urc → List Char
  | .nnmi => ['0', '0']
  | _ => crlf

def urcTable : List Urc := [.nnmi, .inited, .connect, .discon, .httpHeader, .httpContent]

/-- `get_urc_obj(client)` on the received characters -/
def getUrcObj (buffer : List Char) : Option Urc :=
  urcTable.find? fun u =>
    u.pre.length + u.suf.length ≤ buffer.length ∧ u.pre <+: buffer ∧ u.suf <:+ buffer

theorem getUrcObj_some {buffer : List Char} {u : Urc} (h : getUrcObj buffer = some u) :
    u.pre <+: buffer ∧ u.suf <:+ buffer := by
  have hp := List.find?_some h
  have hp' := of_decide_eq_true hp
  exact hp'.2

/-- no prefix of the table starts another one -/
theorem pre_inj {u v : Urc} {l : List Char} (hu : u.pre <+: l) (hv : v.pre <+: l) : u = v := by
  have hpre := List.prefix_or_prefix_of_prefix hu hv
  revert hpre
  cases u <;> cases v <;> decide

/-! ## lines -/

/-- `at_recv_readline(client)` from the characters `buf` on: `none` waits for more characters,
`some (none, rest)` is a line that did not fit -/
def readLoop (bufsz : Nat) : List Char → List Char → Bool → Char →
    Option (Option (List Char) × List Char)
  | [], _, _, _ => none
  | ch :: rest, buf, full, last =>
    let room := buf.length < bufsz
    let buf := if room then buf ++ [ch] else buf
    let full := if room then full else true
    if (ch = '\n' ∧ last = '\r') ∨ (getUrcObj buf).isSome then
      some (if full then none else some buf, rest)
    else readLoop bufsz rest buf full ch

def readLine (bufsz : Nat) (stream : List Char) : Option (Option (List Char) × List Char) :=
  readLoop bufsz stream [] false nul

theorem length_readLoop {bufsz : Nat} {stream buf rest : List Char} {full : Bool} {last : Char}
    {r : Option (List Char)} (h : readLoop bufsz stream buf full last = some (r, rest)) :
    rest.length < stream.length := by
  induction stream generalizing buf full last with
  | nil => cases h
  | cons ch stream ih =>
    rw [readLoop] at h
    rw [List.length_cons]
    generalize (if buf.length < bufsz then buf ++ [ch] else buf) = buf' at h
    generalize (if buf.length < bufsz then full else true) = full' at h
    split at h
    · cases h
      omega
    · have := ih h
      omega

theorem length_readLine {bufsz : Nat} {stream rest : List Char} {r : Option (List Char)}
    (h : readLine bufsz stream = some (r, rest)) : rest.length < stream.length :=
  length_readLoop h

/-- the characters that end a line -/
def Stop (buf : List Char) : Prop := crlf <:+ buf ∨ (getUrcObj buf).isSome

instance (buf : List Char) : Decidable (Stop buf) := inferInstanceAs (Decidable (_ ∨ _))

/-- the newline test looks at the last two characters -/
theorem crlf_suffix_iff (buf : List Char) (ch : Char) :
    crlf <:+ buf ++ [ch] ↔ ch = '\n' ∧ buf.getLast?.getD nul = '\r' := by
  have e : crlf = ['\r'] ++ ['\n'] := rfl
  constructor
  · rintro ⟨z, hz⟩
    rw [e, ← List.append_assoc] at hz
    obtain ⟨h1, h2⟩ := List.append_inj' hz rfl
    refine ⟨(List.cons.inj h2).1.symm, ?_⟩
    rw [← h1, List.getLast?_append]
    rfl
  · rintro ⟨rfl, h⟩
    cases hl : buf.getLast? with
    | none =>
      rw [hl] at h
      exact absurd h (by decide)
    | some c =>
      rw [hl] at h
      obtain ⟨z, hz⟩ := List.getLast?_eq_some_iff.mp hl
      have hc : c = '\r' := h
      exact ⟨z, by rw [hz, hc, e, List.append_assoc]⟩

/-- the parser ends a line behind the characters `t`, of which it has kept `bufsz` -/
def Ended (bufsz : Nat) (t : List Char) : Prop := crlf <:+ t ∨ (getUrcObj (t.take bufsz)).isSome

instance (bufsz : Nat) (t : List Char) : Decidable (Ended bufsz t) :=
  inferInstanceAs (Decidable (_ ∨ _))

theorem ended_of_fits {bufsz : Nat} {t : List Char} (h : t.length ≤ bufsz) :
    Ended bufsz t ↔ Stop t := by
  unfold Ended
  rw [List.take_of_length_le h]
  exact Iff.rfl

/-- one more character of a line -/
theorem readLoop_cons (bufsz : Nat) (done : List Char) (ch : Char) (rest : List Char) :
    readLoop bufsz (ch :: rest) (done.take bufsz) (decide (bufsz < done.length))
        (done.getLast?.getD nul) =
      if Ended bufsz (done ++ [ch]) then
        some (if (done ++ [ch]).length ≤ bufsz then some (done ++ [ch]) else none, rest)
      else readLoop bufsz rest ((done ++ [ch]).take bufsz) (decide (bufsz < (done ++ [ch]).length))
        ((done ++ [ch]).getLast?.getD nul) := by
  have hlen : (done ++ [ch]).length = done.length + 1 := List.length_append
  have hlast : (done ++ [ch]).getLast?.getD nul = ch := by
    rw [List.getLast?_append]
    rfl
  have hbuf : (if (done.take bufsz).length < bufsz then done.take bufsz ++ [ch]
      else done.take bufsz) = (done ++ [ch]).take bufsz := by
    rw [List.length_take]
    by_cases h : done.length < bufsz
    · rw [if_pos (by omega), List.take_of_length_le (by omega), List.take_of_length_le (by omega)]
    · rw [if_neg (by omega), List.take_append_of_le_length (by omega)]
  have hfull : (if (done.take bufsz).length < bufsz then decide (bufsz < done.length)
      else true) = decide (bufsz < (done ++ [ch]).length) := by
    rw [List.length_take, hlen]
    by_cases h : done.length < bufsz
    · rw [if_pos (by omega), decide_eq_false (by omega), decide_eq_false (by omega)]
    · rw [if_neg (by omega), decide_eq_true (by omega)]
  rw [readLoop, hlast]
  simp only [hbuf, hfull, ← crlf_suffix_iff]
  refine if_congr Iff.rfl ?_ rfl
  by_cases h : (done ++ [ch]).length ≤ bufsz
  · rw [if_pos h, List.take_of_length_le h, decide_eq_false (by omega)]
    rfl
  · rw [if_neg h, decide_eq_true (by omega)]
    rfl

/-- **A line is read up to its first end**, and dropped if it does not fit. -/
theorem readLine_ended {bufsz : Nat} {t : List Char} (hne : t ≠ []) (hend : Ended bufsz t)
    (hfirst : ∀ p, p <+: t → Ended bufsz p → p = t) (rest : List Char) :
    readLine bufsz (t ++ rest) = some (if t.length ≤ bufsz then some t else none, rest) := by
  -- the loop behind the characters `done`, with `s` of the line in front of it
  have key : ∀ (s done : List Char), s ≠ [] → done ++ s = t →
      readLoop bufsz (s ++ rest) (done.take bufsz) (decide (bufsz < done.length))
        (done.getLast?.getD nul) = some (if t.length ≤ bufsz then some t else none, rest) := by
    intro s
    induction s with
    | nil => exact fun _ h => absurd rfl h
    | cons ch s ih =>
      intro done _ hdone
      have hnext : done ++ [ch] ++ s = t := by
        rw [List.append_assoc]
        exact hdone
      rw [List.cons_append, readLoop_cons]
      rcases List.eq_nil_or_concat s with rfl | ⟨s', c, hs⟩
      · -- the last character
        rw [List.append_nil] at hnext
        rw [hnext, if_pos hend]
        rfl
      · have hsne : s ≠ [] := by
          rw [hs, List.concat_eq_append]
          exact List.append_ne_nil_of_right_ne_nil _ (List.cons_ne_nil _ _)
        have hno : ¬ Ended bufsz (done ++ [ch]) := by
          intro he
          have heq := hfirst _ ⟨s, hnext⟩ he
          rw [heq] at hnext
          exact hsne (List.append_right_eq_self.mp hnext)
        rw [if_neg hno]
        exact ih (done ++ [ch]) hsne hnext
  have h := key t [] hne rfl
  rw [List.take_nil] at h
  exact h

/-- **A line that fits is read up to its first prefix that ends a line.** -/
theorem readLine_first {bufsz : Nat} {t : List Char} (hstop : Stop t) (hlen : t.length ≤ bufsz)
    (rest : List Char) :
    ∃ p q, t = p ++ q ∧ Stop p ∧ readLine bufsz (t ++ rest) = some (some p, q ++ rest) := by
  have hex : ∃ k, Stop (t.take k) := ⟨t.length, by rwa [List.take_length]⟩
  have hk := Nat.find_spec hex
  have hmin := fun k => Nat.find_min' (m := k) hex
  generalize Nat.find hex = k at hk hmin
  have hfits : (t.take k).length ≤ bufsz := (List.length_take_le' k t).trans hlen
  have hne : t.take k ≠ [] := by
    intro hnil
    rw [hnil] at hk
    exact absurd hk (by decide)
  have h := readLine_ended hne ((ended_of_fits hfits).mpr hk) (fun p hp he => ?_)
    (t.drop k ++ rest)
  · rw [← List.append_assoc, List.take_append_drop, if_pos hfits] at h
    exact ⟨t.take k, t.drop k, (List.take_append_drop k t).symm, hk, h⟩
  · have hpt : p = t.take p.length :=
      List.prefix_iff_eq_take.mp (hp.trans (List.take_prefix k t))
    have hle := hmin p.length (hpt ▸ (ended_of_fits (hp.length_le.trans hfits)).mp he)
    exact hp.eq_of_length_le ((List.length_take_le k t).trans hle)

/-- **A line that no prefix of it ends is read whole**, and dropped if it does not fit. -/
theorem readLine_whole {bufsz : Nat} {t : List Char} (hstop : crlf <:+ t)
    (hfirst : ∀ p, p <+: t → Stop p → p = t) (rest : List Char) :
    readLine bufsz (t ++ rest) = some (if t.length ≤ bufsz then some t else none, rest) := by
  have hne : t ≠ [] := by
    rintro rfl
    exact absurd hstop (by decide)
  refine readLine_ended hne (Or.inl hstop) (fun p hp he => ?_) rest
  rcases he with hc | hu
  · exact hfirst p hp (Or.inl hc)
  · have e := hfirst _ ((List.take_prefix bufsz p).trans hp) (Or.inr hu)
    exact hp.eq_of_length_le (e ▸ List.length_take_le' bufsz p)

/-! ## responses -/

/-- `AT_RESP_OK`, `AT_RESP_ERROR`, `AT_RESP_TIMEOUT`, `AT_RESP_BUFF_FULL` -/
inductive RespStatus where
  | ok
  | error
  | timeout
  | buffFull
deriving DecidableEq

/-- `struct at_response` -/
structure Resp where
  bufSize : Nat
  lineNum : Nat
  buf : List Char
  lineCounts : Nat

/-- `at_create_resp(buf_size, line_num, timeout)` with memory to spare -/
def atCreateResp (bufSize lineNum : Nat) : Resp :=
  ⟨bufSize, lineNum, List.replicate bufSize nul, 0⟩

/-- the locals of `client_parser` -/
structure Progress where
  respBufLen : Nat
  lineCounts : Nat
deriving DecidableEq

/-- `memcpy(resp->buf + offset, data, len)` -/
def Resp.copy (r : Resp) (offset : Nat) (data : List Char) : Resp :=
  { r with buf := r.buf.take offset ++ data ++ r.buf.drop (offset + data.length) }

/-- the result that a line gives a response, if it is its last line -/
def respEnd (lineNum lineCounts : Nat) (data : List Char) : Option RespStatus :=
  if "OK".toList <+: data ∧ lineNum = 0 then some .ok
  else if "ERROR".toList <:+: cString data ∨ "FAIL".toList <+: data then some .error
  else if lineCounts = lineNum ∧ lineNum ≠ 0 then some .ok
  else none

/-- a line of a response: its newline becomes a NUL, then it is copied if it fits -/
def respond (r : Resp) (p : Progress) (status : RespStatus) (line : List Char) :
    Resp × Progress × RespStatus × Bool :=
  let data := line.dropLast ++ [nul]
  let fits := p.respBufLen + data.length < r.bufSize
  let r := if fits then r.copy p.respBufLen data else r
  let p := if fits then ⟨p.respBufLen + data.length, p.lineCounts + 1⟩ else p
  let status := if fits then status else .buffFull
  match respEnd r.lineNum p.lineCounts data with
  | some status => ({ r with lineCounts := p.lineCounts }, ⟨0, 0⟩, status, true)
  | none => (r, p, status, false)

/-- the `n`-th string of a buffer of strings -/
def nthString : Nat → List Char → List Char
  | 0, buf => cString buf
  | n + 1, buf => nthString n (buf.drop ((cString buf).length + 1))

/-- `at_resp_get_line(resp, resp_line)` -/
def Resp.line (r : Resp) (respLine : Nat) : Option (List Char) :=
  if respLine > r.lineCounts ∨ respLine = 0 then none else some (nthString (respLine - 1) r.buf)

/-- the lines that a caller can get -/
def Resp.lines (r : Resp) : List (List Char) :=
  (List.range r.lineCounts).map fun n => nthString n r.buf

end ENV

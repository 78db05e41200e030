import Enviroment.Modem.Http

/-!
# The queries of the modem

`NB_IOT_GetCGSN`, `NB_IOT_GetCIMI`, `NB_IOT_GetSignal` and `NB_IOT_HTTPCREATE`.

A query looks for a line of the response and reads it at fixed offsets.  What it finds is a POINTER
into the buffer of the response, here the characters from the line on; a READER says which of them
can be read.

* `Resp.pointer`, `Resp.pointerByKw`   the two functions that find a line, as pointers;
* `anywhere`, `inLine`                 reading in the whole buffer, and up to the end of the line;
* `inquire`                             what the four functions have in common;
* `nbIotGetCGSN`, …                    the functions;
* `Safe`                               a query reads its line only, and succeeds only with a value
                                       from it;
* `safe_iff`                           which responses it is safe for.
-/

namespace ENV

/-! ## pointers and readers -/

/-- the buffer from its `n`-th string on -/
def nthPointer : Nat → List Char → List Char
  | 0, buf => buf
  | n + 1, buf => nthPointer n (buf.drop ((cString buf).length + 1))

/-- `at_resp_get_line(resp, resp_line)` -/
def Resp.pointer (r : Resp) (respLine : Nat) : Option (List Char) :=
  if respLine > r.lineCounts ∨ respLine = 0 then none else some (nthPointer (respLine - 1) r.buf)

/-- `at_resp_get_line_by_kw(resp, keyword)` -/
def Resp.pointerByKw (r : Resp) (keyword : List Char) : Option (List Char) :=
  ((List.range r.lineCounts).map (nthPointer · r.buf)).find? (keyword <:+: cString ·)

/-- `*(p+k)`, if it can be read -/
abbrev Reader := List Char → Nat → Option Char

/-- all of the buffer can be read -/
def anywhere : Reader := fun p k => p[k]?

/-- the line and its NUL can be read -/
def inLine : Reader := fun p k => (cString p ++ [nul])[k]?

/-- a loop over `n` characters, from `p+k` on -/
def copyChars (rd : Reader) (p : List Char) : Nat → Nat → Option (List Char)
  | _, 0 => some []
  | k, n + 1 => (rd p k).bind fun c => (copyChars rd p (k + 1) n).map (c :: ·)

/-! ## the functions -/

/-- the part of `IOT_DATA_t` that the queries store to -/
structure NbData where
  imsi : List Char
  cgsn : List Char
  signal : List Char
  httpExample : Char

/-- `IOT_DATA_t` as it starts -/
def blankData : NbData := ⟨List.replicate 16 nul, List.replicate 16 nul, [nul, nul], nul⟩

/-- a query: `missing` is its result if there is no line `OK`, and `found` what it does with the
response otherwise; `none` is a null pointer, or a character that cannot be read -/
def inquire (missing : RtErr) (found : Resp → Option (RtErr × NbData)) (data : NbData) :
    Answer → Option (RtErr × NbData)
  | .noMemory => some (rtError, data)
  | .returned i resp =>
    if i ≠ rtEok then some (rtError, data)
    else if (resp.pointerByKw okLine).isSome then found resp
    else some (missing, data)

def cgsnLine : List Char := "+CGSN:".toList
def csqLine : List Char := "+CSQ:".toList

/-- what `NB_IOT_GetCGSN` does with its line -/
def cgsnAt (rd : Reader) (data : NbData) (p : List Char) : Option (RtErr × NbData) :=
  (copyChars rd p 6 15).map fun cs => (rtEok, { data with cgsn := cs ++ [nul] })

/-- `NB_IOT_GetCGSN(IOT_DATA)` -/
def nbIotGetCGSN (rd : Reader) (data : NbData) : Answer → Option (RtErr × NbData) :=
  inquire rtError (fun resp => (resp.pointerByKw cgsnLine).bind (cgsnAt rd data)) data

def cimiAt (rd : Reader) (data : NbData) (p : List Char) : Option (RtErr × NbData) :=
  (copyChars rd p 0 15).map fun cs => (rtEok, { data with imsi := cs ++ [nul] })

/-- `NB_IOT_GetCIMI(IOT_DATA)` -/
def nbIotGetCIMI (rd : Reader) (data : NbData) : Answer → Option (RtErr × NbData) :=
  inquire rtEok (fun resp => (resp.pointer 2).bind (cimiAt rd data)) data

/-- the test of the two digits in the last branch of `NB_IOT_GetSignal` -/
def Passes (c5 c6 : Char) : Prop := ('0' < c5 ∧ '2' < c6) ∨ '2' < c5

instance (c5 c6 : Char) : Decidable (Passes c5 c6) := inferInstanceAs (Decidable (_ ∨ _))

def signalAt (rd : Reader) (data : NbData) (p : List Char) : Option (RtErr × NbData) :=
  (rd p 6).bind fun c6 =>
    if c6 = ',' then (rd p 5).map fun c5 => (rtEok, { data with signal := ['0', c5] })
    else
      (rd p 7).bind fun c7 =>
        if c7 = ',' then
          (rd p 5).map fun c5 =>
            if c5 = '9' ∧ c6 = '9' then (rtError, { data with signal := ['9', '9'] })
            else if Passes c5 c6 then (rtEok, { data with signal := [c5, c6] })
            else (rtEok, data)
        else some (rtEok, data)

/-- `NB_IOT_GetSignal(IOT_DATA)` -/
def nbIotGetSignal (rd : Reader) (data : NbData) : Answer → Option (RtErr × NbData) :=
  inquire rtEok (fun resp => (resp.pointerByKw csqLine).bind (signalAt rd data)) data

def createAt (rd : Reader) (data : NbData) (p : List Char) : Option (RtErr × NbData) :=
  (rd p 12).map fun c => (rtEok, { data with httpExample := c })

/-- `NB_IOT_HTTPCREATE(args)`, from its answer on -/
def nbIotHttpCreateReply (rd : Reader) (data : NbData) : Answer → Option (RtErr × NbData) :=
  inquire rtEok (fun resp => (resp.pointerByKw createLine).bind (createAt rd data)) data

/-! ## the statement -/

inductive Inquiry where
  | cgsn
  | cimi
  | signal
  | create

def Inquiry.run (rd : Reader) : Inquiry → NbData → Answer → Option (RtErr × NbData)
  | .cgsn => nbIotGetCGSN rd
  | .cimi => nbIotGetCIMI rd
  | .signal => nbIotGetSignal rd
  | .create => nbIotHttpCreateReply rd

/-- the text of the line that the query expects -/
def Inquiry.line (resp : Resp) : Inquiry → Option (List Char)
  | .cgsn => atRespGetLineByKw resp cgsnLine
  | .cimi => resp.line 2
  | .signal => atRespGetLineByKw resp csqLine
  | .create => atRespGetLineByKw resp createLine

/-- the value that was stored stands in the line -/
def Inquiry.Stored (text : List Char) (d d' : NbData) : Inquiry → Prop
  | .cgsn => ∃ value, d' = { d with cgsn := value } ∧ cString value = (text.drop 6).take 15
  | .cimi => ∃ value, d' = { d with imsi := value } ∧ cString value = text.take 15
  | .signal => ∃ value, d' = { d with signal := value } ∧
      ((text[6]? = some ',' ∧ ∃ c ∈ text[5]?, value = ['0', c]) ∨
        (text[7]? = some ',' ∧ ∃ c ∈ text[5]?, ∃ c' ∈ text[6]?, value = [c, c']))
  | .create => ∃ c ∈ text[12]?, d' = { d with httpExample := c }

/-- whatever was stored before, the query stays in its line, and it stores a value from the line,
or returns `RT_ERROR` and leaves the data as they are -/
def Safe (q : Inquiry) (resp : Resp) : Prop :=
  ∀ d, ∃ r d', q.run inLine d (.returned rtEok resp) = some (r, d') ∧
    ((∃ line ∈ q.line resp, q.Stored line d d') ∨ (r = rtError ∧ d' = d))

/-- a line of a signal that is stored -/
def SignalLine (text : List Char) : Prop :=
  text[6]? = some ',' ∨
    (text[7]? = some ',' ∧ ∃ c5 ∈ text[5]?, ∃ c6 ∈ text[6]?, Passes c5 c6)

/-- the response has the line `OK`, and the expected line with all that is read -/
def Inquiry.Answered (resp : Resp) : Inquiry → Prop
  | .cgsn => (atRespGetLineByKw resp okLine).isSome →
      ∃ line ∈ atRespGetLineByKw resp cgsnLine, 20 ≤ line.length
  | .cimi => (atRespGetLineByKw resp okLine).isSome ∧ ∃ line ∈ resp.line 2, 14 ≤ line.length
  | .signal => (atRespGetLineByKw resp okLine).isSome ∧
      ∃ line ∈ atRespGetLineByKw resp csqLine, SignalLine line
  | .create => (atRespGetLineByKw resp okLine).isSome ∧
      ∃ line ∈ atRespGetLineByKw resp createLine, 13 ≤ line.length

/-! ## pointers and lines -/

theorem cString_nthPointer (n : Nat) (buf : List Char) :
    cString (nthPointer n buf) = nthString n buf := by
  induction n generalizing buf with
  | zero => rfl
  | succ n ih => exact ih _

theorem line_pointer (r : Resp) (n : Nat) : (r.pointer n).map cString = r.line n := by
  unfold Resp.pointer Resp.line
  split
  · rfl
  · exact congrArg some (cString_nthPointer _ _)

theorem line_pointerByKw (r : Resp) (keyword : List Char) :
    (r.pointerByKw keyword).map cString = atRespGetLineByKw r keyword := by
  unfold Resp.pointerByKw atRespGetLineByKw Resp.lines
  generalize List.range r.lineCounts = ns
  induction ns with
  | nil => rfl
  | cons n ns ih =>
    rw [List.map_cons, List.map_cons, List.find?_cons, List.find?_cons, cString_nthPointer]
    cases decide (keyword <:+: nthString n r.buf) with
    | true => exact congrArg some (cString_nthPointer n r.buf)
    | false => exact ih

theorem isSome_pointerByKw (r : Resp) (keyword : List Char) :
    (r.pointerByKw keyword).isSome = (atRespGetLineByKw r keyword).isSome := by
  rw [← line_pointerByKw, Option.isSome_map]

/-! ## reading -/

theorem inLine_of_lt {p : List Char} {k : Nat} (h : k < (cString p).length) :
    inLine p k = (cString p)[k]? := List.getElem?_append_left h

theorem inLine_end (p : List Char) : inLine p (cString p).length = some nul := by
  unfold inLine
  rw [List.getElem?_append_right (Nat.le_refl _), Nat.sub_self]
  rfl

theorem inLine_eq_none {p : List Char} {k : Nat} : inLine p k = none ↔ (cString p).length < k := by
  unfold inLine
  rw [List.getElem?_eq_none_iff, List.length_append, List.length_singleton]
  omega

theorem inLine_eq_some {p : List Char} {k : Nat} {c : Char} (hc : c ≠ nul) :
    inLine p k = some c ↔ (cString p)[k]? = some c := by
  rcases Nat.lt_trichotomy k (cString p).length with h | h | h
  · rw [inLine_of_lt h]
  · subst h
    rw [inLine_end, List.getElem?_eq_none (Nat.le_refl _)]
    exact ⟨fun e => absurd (Option.some.inj e).symm hc, fun e => (nomatch e)⟩
  · rw [inLine_eq_none.mpr h, List.getElem?_eq_none (Nat.le_of_lt h)]

theorem cString_prefix {p : List Char} (hp : nul ∈ p) : cString p ++ [nul] <+: p := by
  unfold cString
  induction p with
  | nil => exact absurd hp List.not_mem_nil
  | cons a p ih =>
    by_cases ha : a = nul
    · subst ha
      rw [List.takeWhile_cons_of_neg (by decide)]
      exact ⟨p, rfl⟩
    · have hp' : nul ∈ p := (List.mem_cons.mp hp).resolve_left fun e => ha e.symm
      rw [List.takeWhile_cons_of_pos (p := fun c => decide (c ≠ nul)) (decide_eq_true ha),
        List.cons_append]
      exact (List.prefix_cons_inj a).mpr (ih hp')

/-- what can be read in a line that ends in the buffer is what the buffer has -/
theorem anywhere_of_inLine {p : List Char} (hp : nul ∈ p) {k : Nat} {c : Char}
    (h : inLine p k = some c) : anywhere p k = some c := by
  obtain ⟨z, hz⟩ := cString_prefix hp
  unfold anywhere
  unfold inLine at h
  rw [← hz, List.getElem?_append_left (List.getElem?_eq_some_iff.mp h).1, h]

/-! ## the two readers -/

/-- on this line the second reader reads all that the first one does -/
def ReadsAs (rd rd' : Reader) (p : List Char) : Prop := ∀ k c, rd p k = some c → rd' p k = some c

theorem readsAs_anywhere {p : List Char} (hp : nul ∈ p) : ReadsAs inLine anywhere p :=
  fun _ _ h => anywhere_of_inLine hp h

section
variable {rd rd' : Reader} {p : List Char}

theorem copyChars_readsAs (h : ReadsAs rd rd' p) {k n : Nat} {cs : List Char}
    (hc : copyChars rd p k n = some cs) : copyChars rd' p k n = some cs := by
  induction n generalizing k cs with
  | zero => exact hc
  | succ n ih =>
    obtain ⟨c, hk, hm⟩ := Option.bind_eq_some_iff.mp hc
    obtain ⟨cs', hr, rfl⟩ := Option.map_eq_some_iff.mp hm
    rw [copyChars, h k c hk, Option.bind_some, ih hr, Option.map_some]

theorem signalAt_readsAs (h : ReadsAs rd rd' p) {d : NbData} {r : RtErr × NbData}
    (hs : signalAt rd d p = some r) : signalAt rd' d p = some r := by
  obtain ⟨c6, h6, hs⟩ := Option.bind_eq_some_iff.mp hs
  unfold signalAt
  rw [h 6 c6 h6, Option.bind_some]
  split at hs
  next hc =>
    obtain ⟨c5, h5, rfl⟩ := Option.map_eq_some_iff.mp hs
    rw [if_pos hc, h 5 c5 h5, Option.map_some]
  next hc =>
    obtain ⟨c7, h7, hs⟩ := Option.bind_eq_some_iff.mp hs
    rw [if_neg hc, h 7 c7 h7, Option.bind_some]
    split at hs
    next hc7 =>
      obtain ⟨c5, h5, rfl⟩ := Option.map_eq_some_iff.mp hs
      rw [if_pos hc7, h 5 c5 h5, Option.map_some]
    next hc7 => rw [if_neg hc7, hs]

end

theorem copyChars_some {p : List Char} {k n : Nat} (h : k + n ≤ (cString p).length + 1) :
    copyChars inLine p k n = some (((cString p ++ [nul]).drop k).take n) := by
  induction n generalizing k with
  | zero => rw [copyChars, List.take_zero]
  | succ n ih =>
    have hk : k < (cString p ++ [nul]).length := by
      rw [List.length_append, List.length_singleton]
      omega
    have hread : inLine p k = some (cString p ++ [nul])[k] := List.getElem?_eq_getElem hk
    rw [copyChars, hread, Option.bind_some, ih (by omega), Option.map_some,
      List.drop_eq_getElem_cons hk, List.take_succ_cons]

theorem copyChars_none {p : List Char} {k n : Nat} (h : (cString p).length + 1 < k + n)
    (hn : 0 < n) : copyChars inLine p k n = none := by
  induction n generalizing k with
  | zero => exact absurd hn (Nat.lt_irrefl 0)
  | succ n ih =>
    rw [copyChars]
    by_cases hk : (cString p).length < k
    · rw [inLine_eq_none.mpr hk, Option.bind_none]
    · rw [ih (by omega) (by omega)]
      cases inLine p k with
      | none => rfl
      | some c => rfl

theorem cString_copied (p : List Char) {k n : Nat} (hn : 0 < n)
    (h : k + n ≤ (cString p).length + 1) :
    cString (((cString p ++ [nul]).drop k).take n ++ [nul]) = ((cString p).drop k).take n := by
  have hk : k ≤ (cString p).length := by omega
  have hnul : nul ∉ (cString p).drop k := fun hm =>
    nul_not_mem_cString p (List.mem_of_mem_drop hm)
  have hlen : ((cString p).drop k).length = (cString p).length - k := List.length_drop
  rw [List.drop_append_of_le_length hk]
  by_cases hle : k + n ≤ (cString p).length
  · rw [List.take_append_of_le_length (by omega)]
    exact cString_nul (fun hm => hnul (List.mem_of_mem_take hm)) []
  · -- the last character that is copied is the NUL
    have hall : ((cString p).drop k ++ [nul]).length ≤ n := by
      rw [List.length_append, List.length_singleton]
      omega
    rw [List.take_of_length_le hall, List.append_assoc, List.take_of_length_le (by omega)]
    exact cString_nul hnul [nul]

/-! ## the answers -/

/-- the pointer of a query, what it does with it, and its result without the line `OK` -/
def Inquiry.pointer (resp : Resp) : Inquiry → Option (List Char)
  | .cgsn => resp.pointerByKw cgsnLine
  | .cimi => resp.pointer 2
  | .signal => resp.pointerByKw csqLine
  | .create => resp.pointerByKw createLine

def Inquiry.readAt (rd : Reader) (d : NbData) (p : List Char) : Inquiry → Option (RtErr × NbData)
  | .cgsn => cgsnAt rd d p
  | .cimi => cimiAt rd d p
  | .signal => signalAt rd d p
  | .create => createAt rd d p

def Inquiry.missing : Inquiry → RtErr
  | .cgsn => rtError
  | .cimi | .signal | .create => rtEok

section
variable {resp : Resp} (q : Inquiry) (rd : Reader) (d : NbData)

theorem inquire_ok (missing : RtErr) (found : Resp → Option (RtErr × NbData)) :
    inquire missing found d (.returned rtEok resp) =
      if (atRespGetLineByKw resp okLine).isSome then found resp else some (missing, d) := by
  unfold inquire
  simp only
  rw [if_neg (not_not.mpr rfl), isSome_pointerByKw]

theorem run_eq (a : Answer) : q.run rd d a =
    inquire q.missing (fun resp => (q.pointer resp).bind fun p => q.readAt rd d p) d a := by
  cases q with
  | cgsn | cimi | signal | create => rfl

theorem run_found (hok : (atRespGetLineByKw resp okLine).isSome) :
    q.run rd d (.returned rtEok resp) =
      (q.pointer resp).bind fun p => q.readAt rd d p := by
  rw [run_eq, inquire_ok, if_pos hok]

theorem run_missing (hok : ¬ (atRespGetLineByKw resp okLine).isSome) :
    q.run rd d (.returned rtEok resp) = some (q.missing, d) := by
  rw [run_eq, inquire_ok, if_neg hok]

end

theorem line_of_pointer (q : Inquiry) (resp : Resp) :
    (q.pointer resp).map cString = q.line resp := by
  cases q with
  | cgsn | signal | create => exact line_pointerByKw resp _
  | cimi => exact line_pointer resp 2

theorem readAt_readsAs {q : Inquiry} {rd rd' : Reader} {p : List Char} (h : ReadsAs rd rd' p)
    {d : NbData} {r : RtErr × NbData} (hr : q.readAt rd d p = some r) :
    q.readAt rd' d p = some r := by
  cases q with
  | cgsn | cimi =>
    obtain ⟨cs, hcs, rfl⟩ := Option.map_eq_some_iff.mp hr
    exact congrArg (Option.map _) (copyChars_readsAs h hcs)
  | signal => exact signalAt_readsAs h hr
  | create =>
    obtain ⟨c, hc, rfl⟩ := Option.map_eq_some_iff.mp hr
    exact congrArg (Option.map _) (h 12 c hc)

theorem nul_not_mem_line {r : Resp} {keyword line : List Char}
    (h : atRespGetLineByKw r keyword = some line) : nul ∉ line := by
  rw [← line_pointerByKw] at h
  obtain ⟨p, -, rfl⟩ := Option.map_eq_some_iff.mp h
  exact nul_not_mem_cString p

/-- with the line `OK`, a query is safe if its line is there and is good; some data show that
another line is not -/
theorem safe_iff_line {q : Inquiry} {resp : Resp} {Good : List Char → Prop}
    (hok : (atRespGetLineByKw resp okLine).isSome)
    (hgood : ∀ p, Good (cString p) → ∀ d, ∃ r d', q.readAt inLine d p = some (r, d') ∧
      q.Stored (cString p) d d')
    (hbad : ∀ p, ¬ Good (cString p) → ∃ d, ∀ r d', q.readAt inLine d p = some (r, d') →
      r = rtEok ∧ ¬ q.Stored (cString p) d d') :
    Safe q resp ↔ ∃ line ∈ q.line resp, Good line := by
  have hline := line_of_pointer q resp
  have hrun := fun d => run_found q inLine d hok
  rw [← hline]
  cases hp : q.pointer resp with
  | none =>
    rw [hp] at hrun
    constructor
    · intro hs
      obtain ⟨r, d', h, -⟩ := hs blankData
      cases (hrun _).symm.trans h
    · rintro ⟨line, hl, -⟩
      cases hl
  | some p =>
    rw [hp] at hrun hline
    rw [Option.map_some] at hline ⊢
    constructor
    · intro hs
      refine ⟨cString p, rfl, ?_⟩
      by_contra hg
      obtain ⟨d, hd⟩ := hbad p hg
      obtain ⟨r, d', h, hr⟩ := hs d
      obtain ⟨hok, hst⟩ := hd r d' ((hrun d).symm.trans h)
      rcases hr with ⟨line, hl, hs'⟩ | ⟨herr, -⟩
      · obtain rfl : cString p = line := Option.some.inj (hline.trans hl)
        exact hst hs'
      · exact absurd (hok.symm.trans herr) (by decide)
    · rintro ⟨line, hl, hg⟩ d
      obtain rfl : cString p = line := Option.some.inj hl
      obtain ⟨r, d', h, hst⟩ := hgood p hg d
      exact ⟨r, d', (hrun d).trans h, Or.inl ⟨cString p, hline.symm, hst⟩⟩

theorem not_safe_missing {q : Inquiry} {resp : Resp}
    (hok : ¬ (atRespGetLineByKw resp okLine).isSome) (hm : q.missing = rtEok)
    (hd : ∃ d, ∀ line ∈ q.line resp, ¬ q.Stored line d d) : ¬ Safe q resp := by
  intro hs
  obtain ⟨d, hd⟩ := hd
  obtain ⟨r, d', h, hr⟩ := hs d
  have hrun := run_missing q inLine d hok
  rw [hm] at hrun
  cases hrun.symm.trans h
  rcases hr with ⟨line, hl, hst⟩ | ⟨herr, -⟩
  · exact hd line hl hst
  · exact absurd herr (by decide)

/-! ## the queries -/

theorem copied_good {p : List Char} {k n : Nat} (hn : 0 < n) (h : k + n ≤ (cString p).length + 1)
    (g : List Char → NbData) : ∃ r d', (copyChars inLine p k n).map
        (fun cs => (rtEok, g (cs ++ [nul]))) = some (r, d') ∧
      ∃ value, d' = g value ∧ cString value = ((cString p).drop k).take n := by
  rw [copyChars_some h]
  exact ⟨_, _, rfl, _, rfl, cString_copied p hn h⟩

theorem safe_cgsn_iff (resp : Resp) : Safe .cgsn resp ↔ Inquiry.cgsn.Answered resp := by
  by_cases hok : (atRespGetLineByKw resp okLine).isSome
  · have h : Safe .cgsn resp ↔ ∃ line ∈ Inquiry.cgsn.line resp, 20 ≤ line.length := by
      refine safe_iff_line hok ?_ ?_
      · intro p hlen d
        exact copied_good (by decide) (by omega) fun value => { d with cgsn := value }
      · intro p hlen
        refine ⟨blankData, fun r d' h => ?_⟩
        have hcopy : copyChars inLine p 6 15 = none := copyChars_none (by omega) (by decide)
        obtain ⟨cs, hcs, -⟩ := Option.map_eq_some_iff.mp h
        cases hcopy.symm.trans hcs
    exact h.trans ⟨fun hl _ => hl, fun hl => hl hok⟩
  · exact ⟨fun _ h => absurd h hok, fun _ d =>
      ⟨rtError, d, run_missing .cgsn inLine d hok, Or.inr ⟨rfl, rfl⟩⟩⟩

theorem safe_cimi_iff (resp : Resp) : Safe .cimi resp ↔ Inquiry.cimi.Answered resp := by
  by_cases hok : (atRespGetLineByKw resp okLine).isSome
  · have h : Safe .cimi resp ↔ ∃ line ∈ Inquiry.cimi.line resp, 14 ≤ line.length := by
      refine safe_iff_line hok ?_ ?_
      · intro p hlen d
        exact copied_good (by decide) (by omega) fun value => { d with imsi := value }
      · intro p hlen
        refine ⟨blankData, fun r d' h => ?_⟩
        have hcopy : copyChars inLine p 0 15 = none := copyChars_none (by omega) (by decide)
        obtain ⟨cs, hcs, -⟩ := Option.map_eq_some_iff.mp h
        cases hcopy.symm.trans hcs
    exact h.trans ⟨fun hl => ⟨hok, hl⟩, fun hl => hl.2⟩
  · refine iff_of_false (not_safe_missing hok rfl ?_) fun h => hok h.1
    -- no line has 16 characters in its first 15
    refine ⟨{ blankData with imsi := List.replicate 16 'x' }, ?_⟩
    rintro line - ⟨value, hv, hc⟩
    have hval : List.replicate 16 'x' = value := congrArg NbData.imsi hv
    have hlen := congrArg List.length hc
    rw [← hval, List.length_take] at hlen
    have h16 : (cString (List.replicate 16 'x')).length = 16 := by decide
    omega

theorem safe_create_iff (resp : Resp) : Safe .create resp ↔ Inquiry.create.Answered resp := by
  by_cases hok : (atRespGetLineByKw resp okLine).isSome
  · have h : Safe .create resp ↔ ∃ line ∈ Inquiry.create.line resp, 13 ≤ line.length := by
      refine safe_iff_line hok ?_ ?_
      · intro p hlen d
        have hc : inLine p 12 = some (cString p)[12] :=
          (inLine_of_lt hlen).trans (List.getElem?_eq_getElem hlen)
        have hread : createAt inLine d p = some _ := congrArg (Option.map _) hc
        exact ⟨_, _, hread, _, List.getElem?_eq_getElem hlen, rfl⟩
      · intro p hlen
        refine ⟨blankData, fun r d' h => ?_⟩
        obtain ⟨c, -, hc⟩ := Option.map_eq_some_iff.mp h
        refine ⟨(congrArg Prod.fst hc).symm, ?_⟩
        rintro ⟨c', hc', -⟩
        rw [List.getElem?_eq_none (by omega)] at hc'
        cases hc'
    exact h.trans ⟨fun hl => ⟨hok, hl⟩, fun hl => hl.2⟩
  · refine iff_of_false (not_safe_missing hok rfl ?_) fun h => hok h.1
    refine ⟨blankData, ?_⟩
    rintro line hl ⟨c, hc, hd⟩
    obtain rfl : nul = c := congrArg NbData.httpExample hd
    exact nul_not_mem_line hl (List.mem_of_getElem? hc)

/-! ## the signal -/

/-- a line of a signal that is stored, also if its signal is 99 -/
theorem signalAt_stored {p : List Char} (h : SignalLine (cString p)) (d : NbData) :
    ∃ r d', signalAt inLine d p = some (r, d') ∧ Inquiry.signal.Stored (cString p) d d' := by
  have hread : ∀ {k c}, (cString p)[k]? = some c → inLine p k = some c := by
    intro k c hk
    rw [inLine_of_lt (List.getElem?_eq_some_iff.mp hk).1, hk]
  unfold signalAt
  by_cases h6 : (cString p)[6]? = some ','
  · have hlen := (List.getElem?_eq_some_iff.mp h6).1
    have h5 : (cString p)[5]? = some (cString p)[5] := List.getElem?_eq_getElem (by omega)
    rw [hread h6, Option.bind_some, if_pos rfl, hread h5]
    exact ⟨_, _, rfl, _, rfl, Or.inl ⟨h6, _, h5, rfl⟩⟩
  · obtain ⟨h7, c5, h5, c6, hc6, hpass⟩ := h.resolve_left h6
    have hne : c6 ≠ ',' := by
      rintro rfl
      exact h6 hc6
    rw [hread hc6, Option.bind_some, if_neg hne, hread h7, Option.bind_some, if_pos rfl, hread h5,
      Option.map_some]
    have hst : ∀ value, value = [c5, c6] →
        Inquiry.signal.Stored (cString p) d { d with signal := value } := fun value hv =>
      ⟨value, rfl, Or.inr ⟨h7, c5, h5, c6, hc6, hv⟩⟩
    by_cases h99 : c5 = '9' ∧ c6 = '9'
    · rw [if_pos h99]
      exact ⟨_, _, rfl, hst _ (by rw [h99.1, h99.2])⟩
    · rw [if_neg h99, if_pos hpass]
      exact ⟨_, _, rfl, hst _ rfl⟩

/-- any other line is read behind its end, or nothing is stored -/
theorem signalAt_lost {p : List Char} (h : ¬ SignalLine (cString p)) (d : NbData) :
    signalAt inLine d p = none ∨ signalAt inLine d p = some (rtEok, d) := by
  have hcomma : ',' ≠ nul := by decide
  have h6 : inLine p 6 ≠ some ',' := fun e => h (Or.inl ((inLine_eq_some hcomma).mp e))
  unfold signalAt
  cases e6 : inLine p 6 with
  | none => exact Or.inl rfl
  | some c6 =>
    have hne : c6 ≠ ',' := by
      rintro rfl
      exact h6 e6
    rw [Option.bind_some, if_neg hne]
    cases e7 : inLine p 7 with
    | none => exact Or.inl rfl
    | some c7 =>
      rw [Option.bind_some]
      split
      next hc7 =>
        subst hc7
        have h7 := (inLine_eq_some hcomma).mp e7
        have hlen := (List.getElem?_eq_some_iff.mp h7).1
        rw [inLine_of_lt (by omega)] at e6
        have h5 : (cString p)[5]? = some (cString p)[5] := List.getElem?_eq_getElem (by omega)
        have hno : ¬ Passes (cString p)[5] c6 := fun hp => h (Or.inr ⟨h7, _, h5, _, e6, hp⟩)
        rw [inLine_of_lt (by omega), h5, Option.map_some, if_neg, if_neg hno]
        · exact Or.inr rfl
        · rintro ⟨h1, h2⟩
          rw [h1, h2] at hno
          exact hno (by decide)
      next => exact Or.inr rfl

theorem not_stored_blank {line : List Char} (h : nul ∉ line) :
    ¬ Inquiry.signal.Stored line blankData blankData := by
  rintro ⟨value, hd, hv⟩
  obtain rfl : [nul, nul] = value := congrArg NbData.signal hd
  rcases hv with ⟨-, c, -, hc⟩ | ⟨-, c, h5, c', -, hc⟩
  · exact absurd (List.cons.inj hc).1 (by decide)
  · exact h ((List.cons.inj hc).1 ▸ List.mem_of_getElem? h5)

theorem safe_signal_iff (resp : Resp) : Safe .signal resp ↔ Inquiry.signal.Answered resp := by
  by_cases hok : (atRespGetLineByKw resp okLine).isSome
  · have h : Safe .signal resp ↔ ∃ line ∈ Inquiry.signal.line resp, SignalLine line := by
      refine safe_iff_line hok (fun _ => signalAt_stored) ?_
      intro p hbad
      refine ⟨blankData, fun r d' h => ?_⟩
      rcases signalAt_lost hbad blankData with hl | hl
      · cases hl.symm.trans h
      · cases hl.symm.trans h
        exact ⟨rfl, not_stored_blank (nul_not_mem_cString p)⟩
    exact h.trans ⟨fun hl => ⟨hok, hl⟩, fun hl => hl.2⟩
  · refine iff_of_false (not_safe_missing hok rfl ⟨blankData, ?_⟩) fun h => hok h.1
    intro line hl
    exact not_stored_blank (nul_not_mem_line hl)

/-! ## all queries -/

/-- **A query is safe exactly for the responses that answer it.** -/
theorem safe_iff (q : Inquiry) (resp : Resp) : Safe q resp ↔ q.Answered resp := by
  cases q with
  | cgsn => exact safe_cgsn_iff resp
  | cimi => exact safe_cimi_iff resp
  | signal => exact safe_signal_iff resp
  | create => exact safe_create_iff resp

/-- **What a query does within its line, it does in the buffer.** -/
theorem run_anywhere {q : Inquiry} {resp : Resp} {d : NbData} {r : RtErr × NbData}
    (hend : ∀ p ∈ q.pointer resp, nul ∈ p) (h : q.run inLine d (.returned rtEok resp) = some r) :
    q.run anywhere d (.returned rtEok resp) = some r := by
  by_cases hok : (atRespGetLineByKw resp okLine).isSome
  · rw [run_found q inLine d hok] at h
    obtain ⟨p, hp, h⟩ := Option.bind_eq_some_iff.mp h
    rw [run_found q anywhere d hok, hp, Option.bind_some]
    exact readAt_readsAs (readsAs_anywhere (hend p hp)) h
  · rw [run_missing q inLine d hok] at h
    rw [run_missing q anywhere d hok, h]

/-- the id that is read in its line is the one of the loop of the uploads -/
theorem exampleOf_read {nullByte : Char} {resp : Resp} {p : List Char} {c : Char}
    (hp : resp.pointerByKw createLine = some p) (hc : inLine p 12 = some c) :
    exampleOf nullByte resp = c := by
  have hline := line_pointerByKw resp createLine
  rw [hp, Option.map_some] at hline
  unfold exampleOf
  rw [← hline]
  show ((cString p)[12]?).getD nul = c
  by_cases hcn : c = nul
  · subst hcn
    cases h12 : (cString p)[12]? with
    | none => rfl
    | some c' =>
      have hlt := (List.getElem?_eq_some_iff.mp h12).1
      exact Option.some.inj (h12.symm.trans ((inLine_of_lt hlt).symm.trans hc))
  · rw [(inLine_eq_some hcn).mp hc]
    rfl

/-- `NB_IOT_HTTPCREATE` here and in the loop of the uploads -/
theorem httpCreate_of_reply {nullByte : Char} {args : IotData} {d d' : NbData} {a : Answer}
    {r : RtErr} (hd : d.httpExample = args.httpExample)
    (h : nbIotHttpCreateReply inLine d a = some (r, d')) :
    (nbIotHttpCreate nullByte args a).2 = (r, { args with httpExample := d'.httpExample }) := by
  have hargs : { args with httpExample := d.httpExample } = args := by rw [hd]
  cases a with
  | noMemory =>
    cases h
    exact congrArg _ hargs.symm
  | returned i resp =>
    unfold nbIotHttpCreateReply inquire at h
    unfold nbIotHttpCreate
    simp only at h ⊢
    rw [isSome_pointerByKw] at h
    split at h
    next hi =>
      cases h
      rw [if_pos hi, hargs]
    next hi =>
      rw [if_neg hi]
      split at h
      next hok =>
        obtain ⟨p, hp, h⟩ := Option.bind_eq_some_iff.mp h
        obtain ⟨c, hc, hr⟩ := Option.map_eq_some_iff.mp h
        cases hr
        rw [if_pos hok, exampleOf_read hp hc]
      next hok =>
        cases h
        rw [if_neg hok, hargs]

/-- the response that the client hands over with `RT_EOK` after the lines of a reply -/
def handedOver (r : Resp) (p : Progress) (status : RespStatus) : List (List Char) → Option Resp
  | [] => none
  | line :: lines =>
    match respond r p status line with
    | (r, _, status, true) => if status = .ok then some r else none
    | (r, p, status, false) => handedOver r p status lines

/-- a reply of `OK` only -/
def bareReply : List (List Char) := ["\r\n".toList, "OK\r\n".toList]

/-- the number of the card and blanks, which leave no room for the line `OK` -/
def fullReply : List (List Char) :=
  ["\r\n".toList, "460040123456789".toList ++ List.replicate 41 ' ' ++ crlf, "OK\r\n".toList]

theorem safe_fails :
    (∃ resp, handedOver (atCreateResp 64 0) ⟨0, 0⟩ .ok bareReply = some resp ∧ ¬ Safe .cgsn resp ∧
      ¬ Safe .cimi resp ∧ ¬ Safe .signal resp ∧ ¬ Safe .create resp) ∧
    ∃ resp, handedOver (atCreateResp 64 0) ⟨0, 0⟩ .ok fullReply = some resp ∧
      ¬ Safe .cimi resp := by
  constructor
  · refine ⟨_, rfl, fun h => ?_, fun h => ?_, fun h => ?_, fun h => ?_⟩
    · obtain ⟨line, hl, -⟩ := (safe_cgsn_iff _).mp h (by decide)
      exact absurd (Option.isSome_of_mem hl) (by decide)
    · obtain ⟨-, line, hl, hlen⟩ := (safe_cimi_iff _).mp h
      have h2 := Option.mem_unique hl (show "OK\r".toList ∈ _ from rfl)
      rw [h2] at hlen
      exact absurd hlen (by decide)
    · obtain ⟨-, line, hl, -⟩ := (safe_signal_iff _).mp h
      exact absurd (Option.isSome_of_mem hl) (by decide)
    · obtain ⟨-, line, hl, -⟩ := (safe_create_iff _).mp h
      exact absurd (Option.isSome_of_mem hl) (by decide)
  · refine ⟨_, rfl, fun h => ?_⟩
    exact absurd ((safe_cimi_iff _).mp h).1 (by decide)

end ENV

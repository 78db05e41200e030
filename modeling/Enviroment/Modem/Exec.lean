import Mathlib.Logic.Function.Basic
import Enviroment.Kernel.Ipc
import Enviroment.Lib.Trace
import Enviroment.Modem.Framing

/-!
# A command, its response and the parser (`at_obj_exec_cmd`, `client_parser`)

Two threads use the client: `NB_IOT` issues commands, and the parser reads the lines of the modem.
The parser runs the handlers of the notifications itself, and the handler of `+HTTPNMIC:` takes
three characters from the stream and may issue a command of its own.  A step is one kernel call of
`at_obj_exec_cmd`, or one line of the parser.

* `ExecPc`     the places of a thread in `at_obj_exec_cmd`;
* `Reply`      what the modem emits in one go, and the command that it answers with it (only for the
               statements: no code looks at it);
* `At`         the client, its two users, the stream, and what the calls returned;
* `At.reads`   the line that the parser reads next, and the characters that go with it;
* `execStep`, `timerStep`, `parseStep`, `nbCallStep`, `modemStep`, `atStep`   the steps.

Responses are created with memory to spare.
-/

namespace ENV

/-! ## places -/

inductive Th where
  | nb
  | parser
deriving DecidableEq

def Th.other : Th → Th
  | .nb => .parser
  | .parser => .nb

inductive ExecPc where
  /-- not in a command -/
  | idle
  /-- before `rt_mutex_take(client->lock)` -/
  | lock
  /-- suspended there -/
  | lockWait
  /-- holds the lock -/
  | locked
  /-- the command is written; before `resp->line_counts = 0` and the `rt_sem_take` -/
  | wrote
  /-- suspended on `resp_notice` with the timer running -/
  | waiting
  /-- the take succeeded -/
  | woken
  /-- the take timed out -/
  | timedOut
deriving DecidableEq

/-- a line of the modem, and the content that follows a `+HTTPNMIC:` line -/
structure Reply where
  text : List Char
  answers : Option Nat
  content : List Char
deriving DecidableEq

def Reply.chars (r : Reply) : List Char := r.text ++ r.content

/-- the stream of the modem -/
def uartChars (l : List Reply) : List Char := l.flatMap Reply.chars

/-- what is left of a stream when `k` characters are read; a line that is read in part is no answer
any more -/
def dropChars : List Reply → Nat → List Reply
  | [], _ => []
  | r :: l, k =>
    if k = 0 then r :: l
    else if r.chars.length ≤ k then dropChars l (k - r.chars.length)
    else ⟨r.chars.drop k, none, []⟩ :: l

/-- the lines that are read, the last one maybe in part -/
def begun : List Reply → Nat → List Reply
  | [], _ => []
  | r :: l, k => if k = 0 then [] else r :: begun l (k - r.chars.length)

/-- what a call returned, and the response object at that time -/
structure Ret where
  cmd : Nat
  result : RtErr
  resp : Resp

structure At where
  /-- owner of `client->lock` -/
  owner : Option Th
  /-- `client->resp_notice` -/
  notice : Semaphore Th
  /-- `client->resp_status` -/
  status : RespStatus
  /-- whose response object `client->resp` points to -/
  resp : Option Th
  obj : Th → Resp
  /-- the locals of the parser -/
  prog : Progress
  /-- what the parser has not read -/
  uart : List Reply
  pc : Th → ExecPc
  /-- the number of the command of each thread -/
  cmd : Th → Nat
  /-- the number of the next command -/
  next : Nat
  /-- the commands that were written -/
  written : List Nat
  /-- the lines that the modem has emitted -/
  emitted : List Reply
  rets : List Ret

def atInit : At :=
  ⟨none, rtSemCreate 0, .ok, none, fun _ => atCreateResp 0 0, ⟨0, 0⟩, [], fun _ => .idle,
    fun _ => 0, 0, [], [], []⟩

/-! ## steps -/

/-- the start of a call: the response object, and a number for the command -/
def At.begin (s : At) (t : Th) (bufSize lineNum : Nat) : At :=
  { s with
    pc := Function.update s.pc t .lock
    obj := Function.update s.obj t (atCreateResp bufSize lineNum)
    cmd := Function.update s.cmd t s.next
    next := s.next + 1 }

/-- `__exit`: the lock goes to the other thread if it waits for it -/
def At.finish (s : At) (t : Th) (result : RtErr) : At :=
  let pc := Function.update s.pc t .idle
  let handOver := s.pc t.other = .lockWait
  { s with
    resp := none
    rets := s.rets ++ [⟨s.cmd t, result, s.obj t⟩]
    owner := if handOver then some t.other else none
    pc := if handOver then Function.update pc t.other .locked else pc }

/-- the next kernel call of `at_obj_exec_cmd` -/
def execStep (s : At) (t : Th) : Option At :=
  match s.pc t with
  | .idle => none
  | .lock =>
    if s.owner = none then
      some { s with owner := some t, pc := Function.update s.pc t .locked }
    else some { s with pc := Function.update s.pc t .lockWait }
  | .lockWait => none
  | .locked =>
    some { s with
      status := .ok
      resp := some t
      written := s.written ++ [s.cmd t]
      pc := Function.update s.pc t .wrote }
  | .wrote =>
    let r := rtSemTake s.notice t
    some { s with
      obj := Function.update s.obj t { s.obj t with lineCounts := 0 }
      notice := r.2
      pc := Function.update s.pc t (if r.1 then .woken else .waiting) }
  | .waiting => none
  | .woken => some (s.finish t (if s.status = .ok then rtEok else -rtError))
  | .timedOut => some ({ s with status := .timeout }.finish t (-rtEtimeout))

/-- the timer of the wait for `resp_notice` -/
def timerStep (s : At) (t : Th) : Option At :=
  if s.pc t = .waiting then
    some { s with
      notice := { s.notice with suspended := s.notice.suspended.erase t }
      pc := Function.update s.pc t .timedOut }
  else none

/-- `rt_sem_release(client->resp_notice)` -/
def At.release (s : At) : At :=
  let r := rtSemRelease s.notice
  match r.1 with
  | some t => { s with notice := r.2, pc := Function.update s.pc t .woken }
  | none => { s with notice := r.2 }

/-- `+HTTPNMIC:` with the flag that closes the instance -/
def closes (text : List Char) : Prop :=
  getUrcObj text = some .httpContent ∧ text[12]? = some '0'

instance (text : List Char) : Decidable (closes text) := inferInstanceAs (Decidable (_ ∧ _))

/-- the response object and the locals of the parser after a line -/
def At.store (s : At) (t : Th) (r : Resp × Progress × RespStatus × Bool) : At :=
  { s with
    obj := Function.update s.obj t r.1
    prog := r.2.1
    status := r.2.2.1 }

/-- a line that is no notification goes to the pending response; its last line ends the wait -/
def At.response (s : At) (text : List Char) : At :=
  match s.resp with
  | none => s
  | some t =>
    let r := respond (s.obj t) s.prog s.status text
    if r.2.2.2 then At.release { s.store t r with resp := none } else s.store t r

/-- `recv_bufsz` in `NB_IOT_Init(&IOT_Data, "uart2", 512)` -/
def recvBufsz : Nat := 512

/-- the characters that the handler of a line takes, if it has one -/
def handlerTakes (line : Option (List Char)) : Nat :=
  ((line.bind getUrcObj).map Urc.takes).getD 0

/-- the line that the parser reads next, or `none` if it does not fit, and the number of characters
that it and its handler take.  The handler waits for its characters; `late` if it has waited in
vain, and takes what is there. -/
def At.reads (s : At) (late : Bool) : Option (Option (List Char) × Nat) :=
  (readLine recvBufsz (uartChars s.uart)).bind fun (line, rest) =>
    let takes := handlerTakes line
    if late = decide (rest.length < takes) then
      some (line, (uartChars s.uart).length - (rest.length - takes))
    else none

/-- what the parser does with a line, behind which `uart` is left -/
def At.parsed (s : At) (line : Option (List Char)) (uart : List Reply) : At :=
  let s := { s with uart }
  match line with
  | none => s
  | some data =>
    if (getUrcObj data).isSome then
      if closes data then s.begin .parser 64 2 else s
    else s.response data

/-- one line of `client_parser`; `late` if `at_client_recv(tmp1, 3, 5000)` times out in its
handler -/
def parseStep (s : At) (late : Bool) : Option At :=
  if s.pc .parser ≠ .idle then none
  else (s.reads late).map fun r => s.parsed r.1 (dropChars s.uart r.2)

/-- `NB_IOT` calls `at_exec_cmd` with a new response -/
def nbCallStep (s : At) (bufSize lineNum : Nat) : Option At :=
  if s.pc .nb = .idle then some (s.begin .nb bufSize lineNum) else none

/-- the modem emits a line with its content; it answers only commands that were written -/
def modemStep (s : At) (line : Reply) : Option At :=
  if ∀ k ∈ line.answers, k ∈ s.written then
    some { s with uart := s.uart ++ [line], emitted := s.emitted ++ [line] }
  else none

inductive Act where
  | call (bufSize lineNum : Nat)
  | exec (t : Th)
  | timer (t : Th)
  | parse
  /-- the wait of the parser for a content is over -/
  | recvTimeout
  | modem (line : Reply)

def atStep (s : At) : Act → Option At
  | .call bufSize lineNum => nbCallStep s bufSize lineNum
  | .exec t => execStep s t
  | .timer t => timerStep s t
  | .parse => parseStep s false
  | .recvTimeout => parseStep s true
  | .modem line => modemStep s line

/-! ## what the parts of a step do -/

/-- the steps of a thread in `at_obj_exec_cmd` -/
inductive Exec (s : At) (t : Th) : At → Prop where
  | take (hp : s.pc t = .lock) (ho : s.owner = none) :
    Exec s t { s with owner := some t, pc := Function.update s.pc t .locked }
  | suspend (hp : s.pc t = .lock) (ho : s.owner ≠ none) :
    Exec s t { s with pc := Function.update s.pc t .lockWait }
  | write (hp : s.pc t = .locked) :
    Exec s t { s with
      status := .ok
      resp := some t
      written := s.written ++ [s.cmd t]
      pc := Function.update s.pc t .wrote }
  | token (hp : s.pc t = .wrote) (hv : 0 < s.notice.value) :
    Exec s t { s with
      obj := Function.update s.obj t { s.obj t with lineCounts := 0 }
      notice := { s.notice with value := s.notice.value - 1 }
      pc := Function.update s.pc t .woken }
  | wait (hp : s.pc t = .wrote) (hv : ¬ 0 < s.notice.value) :
    Exec s t { s with
      obj := Function.update s.obj t { s.obj t with lineCounts := 0 }
      notice := { s.notice with suspended := s.notice.suspended ++ [t] }
      pc := Function.update s.pc t .waiting }
  | done (hp : s.pc t = .woken) :
    Exec s t (s.finish t (if s.status = .ok then rtEok else -rtError))
  | giveUp (hp : s.pc t = .timedOut) :
    Exec s t ({ s with status := .timeout }.finish t (-rtEtimeout))

theorem exec_cases {s u : At} {t : Th} (h : execStep s t = some u) : Exec s t u := by
  unfold execStep at h
  cases hp : s.pc t with
  | idle | lockWait | waiting =>
    simp only [hp] at h
    cases h
  | lock =>
    simp only [hp] at h
    split at h
    next ho =>
      cases h
      exact .take hp ho
    next ho =>
      cases h
      exact .suspend hp ho
  | locked =>
    simp only [hp] at h
    cases h
    exact .write hp
  | wrote =>
    simp only [hp, rtSemTake] at h
    by_cases hv : 0 < s.notice.value
    · simp only [if_pos hv, ↓reduceIte] at h
      cases h
      exact .token hp hv
    · simp only [if_neg hv, Bool.false_eq_true, ↓reduceIte] at h
      cases h
      exact .wait hp hv
  | woken =>
    simp only [hp] at h
    cases h
    exact .done hp
  | timedOut =>
    simp only [hp] at h
    cases h
    exact .giveUp hp

theorem timer_cases {s u : At} {t : Th} (h : timerStep s t = some u) :
    s.pc t = .waiting ∧ u = { s with
      notice := { s.notice with suspended := s.notice.suspended.erase t }
      pc := Function.update s.pc t .timedOut } := by
  unfold timerStep at h
  split at h
  next hp => exact ⟨hp, (Option.some.inj h).symm⟩
  next => cases h

theorem call_cases {s u : At} {bufSize lineNum : Nat} (h : nbCallStep s bufSize lineNum = some u) :
    s.pc .nb = .idle ∧ u = s.begin .nb bufSize lineNum := by
  unfold nbCallStep at h
  split at h
  next hp => exact ⟨hp, (Option.some.inj h).symm⟩
  next => cases h

theorem modem_cases {s u : At} {line : Reply} (h : modemStep s line = some u) :
    (∀ k ∈ line.answers, k ∈ s.written) ∧
      u = { s with uart := s.uart ++ [line], emitted := s.emitted ++ [line] } := by
  unfold modemStep at h
  split at h
  next hk => exact ⟨hk, (Option.some.inj h).symm⟩
  next => cases h

theorem begin_self (s : At) (t : Th) (bufSize lineNum : Nat) :
    (s.begin t bufSize lineNum).pc t = .lock ∧ (s.begin t bufSize lineNum).cmd t = s.next ∧
      (s.begin t bufSize lineNum).obj t = atCreateResp bufSize lineNum := by
  refine ⟨?_, ?_, ?_⟩
  · show Function.update s.pc t .lock t = _
    exact Function.update_self _ _ _
  · show Function.update s.cmd t s.next t = _
    exact Function.update_self _ _ _
  · show Function.update s.obj t (atCreateResp bufSize lineNum) t = _
    exact Function.update_self _ _ _

theorem begin_other (s : At) {t u : Th} (h : u ≠ t) (bufSize lineNum : Nat) :
    (s.begin t bufSize lineNum).pc u = s.pc u ∧ (s.begin t bufSize lineNum).cmd u = s.cmd u ∧
      (s.begin t bufSize lineNum).obj u = s.obj u :=
  ⟨Function.update_of_ne h _ _, Function.update_of_ne h _ _, Function.update_of_ne h _ _⟩

theorem store_obj (s : At) (t : Th) (r : Resp × Progress × RespStatus × Bool) :
    (s.store t r).obj t = r.1 := by
  show Function.update s.obj t r.1 t = _
  exact Function.update_self _ _ _

/-- a release resumes the thread that waits longest, or is counted -/
theorem release_cases (s : At) :
    (s.notice.suspended = [] ∧ s.release = { s with notice := ⟨s.notice.value + 1, []⟩ }) ∨
      ∃ t ts, s.notice.suspended = t :: ts ∧ s.release =
        { s with notice := ⟨s.notice.value, ts⟩, pc := Function.update s.pc t .woken } := by
  unfold At.release rtSemRelease
  cases hs : s.notice.suspended with
  | nil => exact Or.inl ⟨rfl, rfl⟩
  | cons t ts => exact Or.inr ⟨t, ts, rfl, rfl⟩

theorem response_none {s : At} (h : s.resp = none) (text : List Char) : s.response text = s := by
  unfold At.response
  rw [h]

theorem response_more {s : At} {t : Th} {text : List Char}
    {r : Resp × Progress × RespStatus × Bool} (h : s.resp = some t)
    (hr : respond (s.obj t) s.prog s.status text = r) (hend : r.2.2.2 = false) :
    s.response text = s.store t r := by
  subst hr
  unfold At.response
  simp only [h, hend, Bool.false_eq_true, ↓reduceIte]

theorem response_last {s : At} {t : Th} {text : List Char}
    {r : Resp × Progress × RespStatus × Bool} (h : s.resp = some t)
    (hr : respond (s.obj t) s.prog s.status text = r) (hend : r.2.2.2 = true) :
    s.response text = At.release { s.store t r with resp := none } := by
  subst hr
  unfold At.response
  simp only [h, hend, ↓reduceIte]

/-- without a thread that waits for the lock, `__exit` frees it -/
theorem finish_free {s : At} {t : Th} (h : s.pc t.other ≠ .lockWait) (result : RtErr) :
    s.finish t result = { s with
      resp := none
      rets := s.rets ++ [⟨s.cmd t, result, s.obj t⟩]
      owner := none
      pc := Function.update s.pc t .idle } := by
  unfold At.finish
  simp only [if_neg h]

theorem other_ne (t : Th) : t.other ≠ t := by
  cases t <;> decide

theorem eq_or_other (t u : Th) : u = t ∨ u = t.other := by
  cases t <;> cases u <;> decide

theorem finish_pc_self (s : At) (t : Th) (result : RtErr) : (s.finish t result).pc t = .idle := by
  unfold At.finish
  show (if s.pc t.other = .lockWait then
    Function.update (Function.update s.pc t .idle) t.other .locked
    else Function.update s.pc t .idle) t = _
  split
  · rw [Function.update_of_ne (other_ne t).symm]
    exact Function.update_self _ _ _
  · exact Function.update_self _ _ _

theorem finish_pc_other (s : At) (t : Th) (result : RtErr) : (s.finish t result).pc t.other =
    if s.pc t.other = .lockWait then .locked else s.pc t.other := by
  unfold At.finish
  show (if s.pc t.other = .lockWait then
    Function.update (Function.update s.pc t .idle) t.other .locked
    else Function.update s.pc t .idle) t.other = _
  split
  · exact Function.update_self _ _ _
  · exact Function.update_of_ne (other_ne t) _ _

theorem update_nb_other (f : Th → ExecPc) (v : ExecPc) :
    Function.update f .nb v .parser = f .parser :=
  Function.update_of_ne (by decide) _ _

theorem update_other_nb (f : Th → ExecPc) (v : ExecPc) :
    Function.update f .parser v .nb = f .nb :=
  Function.update_of_ne (by decide) _ _

/-- what the parser does: a line that does not fit is dropped, a notification goes to its handler,
and any other line to the response -/
inductive Parsed (s : At) (uart : List Reply) : Option (List Char) → At → Prop where
  | lost : Parsed s uart none { s with uart }
  | closing {data : List Char} (hc : closes data) :
    Parsed s uart (some data) (At.begin { s with uart } .parser 64 2)
  | note {data : List Char} (hc : ¬ closes data) (hu : (getUrcObj data).isSome) :
    Parsed s uart (some data) { s with uart }
  | line {data : List Char} (hu : getUrcObj data = none) :
    Parsed s uart (some data) (At.response { s with uart } data)

theorem parsed_cases (s : At) (line : Option (List Char)) (uart : List Reply) :
    Parsed s uart line (s.parsed line uart) := by
  unfold At.parsed
  cases line with
  | none => exact .lost
  | some data =>
    dsimp only
    by_cases hu : (getUrcObj data).isSome
    · rw [if_pos hu]
      by_cases hc : closes data
      · rw [if_pos hc]
        exact .closing hc
      · rw [if_neg hc]
        exact .note hc hu
    · rw [if_neg hu]
      exact .line (Option.not_isSome_iff_eq_none.mp hu)

theorem parse_cases {s t : At} {late : Bool} (h : parseStep s late = some t) :
    s.pc .parser = .idle ∧ ∃ line k, s.reads late = some (line, k) ∧
      Parsed s (dropChars s.uart k) line t := by
  unfold parseStep at h
  by_cases hp : s.pc .parser = .idle
  · rw [if_neg (not_not.mpr hp)] at h
    obtain ⟨r, hr, rfl⟩ := Option.map_eq_some_iff.mp h
    exact ⟨hp, r.1, r.2, hr, parsed_cases s r.1 _⟩
  · rw [if_pos hp] at h
    cases h

/-! ## the stream -/

theorem uartChars_cons (r : Reply) (l : List Reply) : uartChars (r :: l) = r.chars ++ uartChars l :=
  List.flatMap_cons

theorem dropChars_zero (l : List Reply) : dropChars l 0 = l := by
  cases l with
  | nil => rfl
  | cons r l => exact if_pos rfl

theorem begun_zero (l : List Reply) : begun l 0 = [] := by
  cases l with
  | nil => rfl
  | cons r l => exact if_pos rfl

/-- who is left was there before, or answers nothing -/
theorem mem_dropChars {l : List Reply} {k : Nat} {r : Reply} (h : r ∈ dropChars l k) :
    r ∈ l ∨ r.answers = none := by
  induction l generalizing k with
  | nil => exact absurd h List.not_mem_nil
  | cons x l ih =>
    unfold dropChars at h
    split at h
    · exact Or.inl h
    · split at h
      · exact (ih h).imp_left (List.mem_cons_of_mem x)
      · rcases List.mem_cons.mp h with rfl | h
        · exact Or.inr rfl
        · exact Or.inl (List.mem_cons_of_mem x h)

theorem length_chars_pos {r : Reply} (h : r.text ≠ []) : r.chars.length ≠ 0 := by
  have := List.length_pos_of_ne_nil h
  unfold Reply.chars
  rw [List.length_append]
  omega

/-- the characters of the first line are gone -/
theorem dropChars_line {r : Reply} (h : r.text ≠ []) (l : List Reply) :
    dropChars (r :: l) r.chars.length = l := by
  rw [dropChars, if_neg (length_chars_pos h), if_pos (Nat.le_refl _), Nat.sub_self, dropChars_zero]

/-- what the parser gets to see of a line -/
def Reply.line (r : Reply) : Option (List Char) :=
  if r.text.length ≤ recvBufsz then some r.text else none

/-- The line ends with its only `\r\n`, its handler takes the content and nothing else, and it is no
`+NNMI:` line, which the table cuts in two. -/
def Reply.Taken (r : Reply) : Prop :=
  crlf <:+ r.text ∧ ¬ crlf <:+: r.text.dropLast ∧ ¬ Urc.nnmi.pre <+: r.text ∧
    r.content.length = handlerTakes r.line

instance (r : Reply) : Decidable r.Taken := inferInstanceAs (Decidable (_ ∧ _))

theorem Reply.Taken.ne_nil {r : Reply} (h : r.Taken) : r.text ≠ [] := by
  intro hnil
  have hc := h.1
  rw [hnil] at hc
  exact absurd hc (by decide)

theorem Reply.Taken.read {r : Reply} (h : r.Taken) (rest : List Char) :
    readLine recvBufsz (r.text ++ rest) = some (r.line, rest) := by
  refine readLine_whole h.1 (fun p hp hs => ?_) rest
  have hend : crlf <:+ p := by
    rcases hs with hc | hu
    · exact hc
    · obtain ⟨u, hu⟩ := Option.isSome_iff_exists.mp hu
      obtain ⟨hpre, hsuf⟩ := getUrcObj_some hu
      cases u with
      | nnmi => exact absurd (hpre.trans hp) h.2.2.1
      | _ => exact hsuf
  obtain ⟨q, hq⟩ := hp
  rcases List.eq_nil_or_concat q with rfl | ⟨q, c, rfl⟩
  · rw [← hq, List.append_nil]
  · -- it would end twice
    refine absurd ?_ h.2.1
    rw [← hq, List.concat_eq_append, ← List.append_assoc, List.dropLast_concat]
    exact hend.isInfix.trans (List.prefix_append _ _).isInfix

theorem reads_taken {s : At} {r : Reply} {l : List Reply} (hu : s.uart = r :: l) (h : r.Taken)
    (late : Bool) : s.reads late = if late then none else some (r.line, r.chars.length) := by
  have hc := h.2.2.2
  have hlt : ¬ (r.content ++ uartChars l).length < handlerTakes r.line := by
    rw [List.length_append]
    omega
  unfold At.reads
  rw [hu, uartChars_cons, Reply.chars, List.append_assoc, h.read, Option.bind_some]
  dsimp only
  rw [decide_eq_false hlt]
  cases late with
  | true => rfl
  | false =>
    rw [if_pos rfl, ← hc]
    simp only [List.length_append, Bool.false_eq_true, ↓reduceIte, Option.some.injEq,
      Prod.mk.injEq, true_and]
    omega

/-- a line that is taken is read with its content, and the handler does not wait -/
theorem parseStep_taken {s : At} (hp : s.pc .parser = .idle) {r : Reply} {l : List Reply}
    (hu : s.uart = r :: l) (h : r.Taken) (late : Bool) :
    parseStep s late = if late then none else some (s.parsed r.line l) := by
  unfold parseStep
  rw [if_neg (not_not.mpr hp), reads_taken hu h, hu]
  cases late with
  | true => rfl
  | false =>
    simp only [Bool.false_eq_true, ↓reduceIte, Option.map_some, dropChars_line h.ne_nil]

theorem release_uart (s : At) (v : List Reply) :
    { s.release with uart := v } = At.release { s with uart := v } := by
  unfold At.release rtSemRelease
  cases s.notice.suspended <;> rfl

theorem response_uart (s : At) (text : List Char) (v : List Reply) :
    { s.response text with uart := v } = At.response { s with uart := v } text := by
  rcases Option.eq_none_or_eq_some s.resp with hr | ⟨t, hr⟩
  · rw [response_none hr]
    exact (response_none (s := { s with uart := v }) hr text).symm
  · cases hend : (respond (s.obj t) s.prog s.status text).2.2.2 with
    | false =>
      rw [response_more hr rfl hend]
      exact (response_more (s := { s with uart := v }) hr rfl hend).symm
    | true =>
      rw [response_last hr rfl hend]
      exact (release_uart _ v).trans (response_last (s := { s with uart := v }) hr rfl hend).symm

/-- what is behind a line does not matter for the line -/
theorem parsed_uart (s : At) (line : Option (List Char)) (u v : List Reply) :
    { s.parsed line u with uart := v } = s.parsed line v := by
  unfold At.parsed
  cases line with
  | none => rfl
  | some data =>
    dsimp only
    by_cases hu : (getUrcObj data).isSome
    · rw [if_pos hu, if_pos hu]
      by_cases hc : closes data
      · rw [if_pos hc, if_pos hc]
        rfl
      · rw [if_neg hc, if_neg hc]
    · rw [if_neg hu, if_neg hu]
      exact response_uart { s with uart := u } data v

theorem uart_parsed (s : At) (line : Option (List Char)) (u : List Reply) :
    (s.parsed line u).uart = u :=
  (congrArg At.uart (parsed_uart s line u u)).symm

end ENV

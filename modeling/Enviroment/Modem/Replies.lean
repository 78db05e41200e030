import Enviroment.Modem.Handler
import Enviroment.Modem.Lock

/-!
# Whose lines a response holds

The result of a command rests on `client->resp`, on the two locals of the parser and on
`resp_notice`; a timeout resets only the first of them.

* `At.replyOf`            the lines that the modem emitted in answer to a command;
* `OwnLines`              a call that returned `RT_EOK` holds exactly these lines;
* `Orderly`               what the modem and the timers have to keep to;
* `View`, `CmdPhase`        what `NB_IOT` and the parser hold of the command in progress;
* `ownLines_of_orderly`   in an orderly run every successful call holds its own lines.
-/

namespace ENV

/-! ## strings in a buffer -/

/-- how the parser stores lines: each newline is a NUL -/
def encode (ls : List (List Char)) : List Char := ls.flatMap fun t => t.dropLast ++ [nul]

/-- the characters that they take -/
def total (ls : List (List Char)) : Nat := (ls.map List.length).sum

theorem encode_append (a b : List (List Char)) : encode (a ++ b) = encode a ++ encode b :=
  List.flatMap_append

theorem encode_singleton (t : List Char) : encode [t] = t.dropLast ++ [nul] :=
  List.flatMap_singleton _ _

theorem total_append (a b : List (List Char)) : total (a ++ b) = total a + total b := by
  unfold total
  rw [List.map_append, List.sum_append]

theorem total_singleton (t : List Char) : total [t] = t.length := by
  simp [total]

theorem length_data {t : List Char} (h : t ≠ []) : (t.dropLast ++ [nul]).length = t.length := by
  have := List.length_pos_of_ne_nil h
  rw [List.length_append, List.length_dropLast, List.length_singleton]
  omega

theorem length_encode {ls : List (List Char)} (h : ∀ t ∈ ls, t ≠ []) :
    (encode ls).length = total ls := by
  induction ls with
  | nil => rfl
  | cons t ls ih =>
    have e := ih fun x hx => h x (List.mem_cons_of_mem _ hx)
    rw [show t :: ls = [t] ++ ls from rfl, encode_append, total_append, encode_singleton,
      total_singleton, List.length_append, length_data (h t List.mem_cons_self), e]

theorem nthString_encode {ls : List (List Char)} (h : ∀ t ∈ ls, nul ∉ t.dropLast) (z : List Char)
    {n : Nat} {t : List Char} (hn : ls[n]? = some t) :
    nthString n (encode ls ++ z) = t.dropLast := by
  induction ls generalizing n with
  | nil => cases hn
  | cons x ls ih =>
    have hx := h x List.mem_cons_self
    have e : encode (x :: ls) ++ z = x.dropLast ++ nul :: (encode ls ++ z) := by
      rw [show x :: ls = [x] ++ ls from rfl, encode_append, encode_singleton]
      simp
    rw [e]
    cases n with
    | zero =>
      cases hn
      exact cString_nul hx _
    | succ n =>
      unfold nthString
      rw [cString_nul hx, List.drop_length_add_append]
      exact ih (fun y hy => h y (List.mem_cons_of_mem _ hy)) hn

theorem lines_encode {ls : List (List Char)} (h : ∀ t ∈ ls, nul ∉ t.dropLast) (z : List Char) :
    ((List.range ls.length).map fun n => nthString n (encode ls ++ z)) = ls.map List.dropLast := by
  apply List.ext_getElem?
  intro n
  rw [List.getElem?_map, List.getElem?_map]
  cases hn : ls[n]? with
  | none =>
    rw [List.getElem?_eq_none (by
      rw [List.length_range]
      exact List.getElem?_eq_none_iff.mp hn)]
    rfl
  | some t =>
    have hlt : n < ls.length := (List.getElem?_eq_some_iff.mp hn).1
    rw [List.getElem?_range hlt]
    exact congrArg some (nthString_encode h z hn)

theorem copy_encode {r : Resp} {ls : List (List Char)} {t : List Char} {m : Nat}
    (hne : ∀ x ∈ ls, x ≠ []) (hb : r.buf = encode ls ++ List.replicate m nul) (ht : t ≠ []) :
    (r.copy (total ls) (t.dropLast ++ [nul])).buf =
      encode (ls ++ [t]) ++ List.replicate (m - t.length) nul := by
  have hlen := length_encode hne
  show r.buf.take (total ls) ++ (t.dropLast ++ [nul]) ++
    r.buf.drop (total ls + (t.dropLast ++ [nul]).length) = _
  rw [hb, ← hlen, List.take_left' rfl, length_data ht, List.drop_length_add_append,
    List.drop_replicate, encode_append, encode_singleton]

/-! ## the statement -/

/-- the lines among `l` that answer the command `k` and are no notifications -/
def replyLines (l : List Reply) (k : Nat) : List (List Char) :=
  (l.filter fun x => x.answers = some k ∧ getUrcObj x.text = none).map Reply.text

def At.replyOf (s : At) (k : Nat) : List (List Char) := replyLines s.emitted k

/-- the response of every call that returned `RT_EOK` holds the lines of its own reply -/
def OwnLines (s : At) : Prop :=
  ∀ r ∈ s.rets, r.result = rtEok → r.resp.lines = (s.replyOf r.cmd).map List.dropLast

instance (s : At) : Decidable (OwnLines s) :=
  inferInstanceAs (Decidable (∀ r ∈ s.rets, _ → _))

/-- no line ends the reply -/
def OpenReply (lineNum : Nat) (ls : List (List Char)) : Prop :=
  ∀ i < ls.length, ∀ t ∈ ls[i]?, respEnd lineNum (i + 1) (t.dropLast ++ [nul]) = none

instance (lineNum : Nat) (ls : List (List Char)) : Decidable (OpenReply lineNum ls) :=
  inferInstanceAs (Decidable (∀ i < ls.length, ∀ t ∈ ls[i]?, _))

/-- the next line of the reply to the command of `NB_IOT`, with room for it in the response -/
def NextLine (s : At) (text : List Char) : Prop :=
  (s.pc .nb = .wrote ∨ s.pc .nb = .waiting) ∧ text ≠ [] ∧ nul ∉ text.dropLast ∧
    OpenReply (s.obj .nb).lineNum (s.replyOf (s.cmd .nb)) ∧
    total (s.replyOf (s.cmd .nb) ++ [text]) < (s.obj .nb).bufSize

instance (s : At) (text : List Char) : Decidable (NextLine s text) :=
  inferInstanceAs (Decidable (_ ∧ _))

/-- a line that the modem may emit now: no further answer to a call that has returned `RT_EOK`,
and an answer to the command in progress only as its next line -/
def Expected (s : At) (line : Reply) : Prop :=
  getUrcObj line.text = none → ∀ k ∈ line.answers,
    (∀ r ∈ s.rets, r.cmd = k → r.result ≠ rtEok) ∧
      (k = s.cmd .nb → s.pc .nb ≠ .idle → s.pc .nb ≠ .timedOut → NextLine s line.text)

instance (s : At) (line : Reply) : Decidable (Expected s line) :=
  inferInstanceAs (Decidable (_ → ∀ k ∈ line.answers, _))

/-- A line that may be read now, and `k` characters with it.  While a response is pending, an
ordinary line is a whole line of the modem, an answer to the command, before the timeout, and the
last one only after `resp->line_counts = 0`; a notification and its handler take no character of
such a line. -/
def Timely (s : At) (line : Option (List Char)) (k : Nat) : Prop :=
  s.resp ≠ none →
    (∀ data ∈ line, getUrcObj data = none →
      (∀ x ∈ s.uart.head?, x.text = data ∧ x.chars.length = k ∧ x.answers = some (s.cmd .nb)) ∧
        s.pc .nb ≠ .timedOut ∧ (s.pc .nb = .wrote →
          respEnd (s.obj .nb).lineNum (s.prog.lineCounts + 1) (data.dropLast ++ [nul]) = none)) ∧
      ((∀ data ∈ line, getUrcObj data ≠ none) → replyLines (begun s.uart k) (s.cmd .nb) = [])

instance (s : At) (line : Option (List Char)) (k : Nat) : Decidable (Timely s line k) :=
  inferInstanceAs (Decidable (_ → _))

/-- `NB_IOT` times out only before a line of its reply is read -/
def Orderly (s : At) (a : Act) (_ : At) : Prop :=
  match a with
  | .call _ _ | .exec _ | .timer .parser => True
  | .timer .nb => s.prog = ⟨0, 0⟩
  | .parse => ∀ r ∈ s.reads false, Timely s r.1 r.2
  | .recvTimeout => ∀ r ∈ s.reads true, Timely s r.1 r.2
  | .modem line => Expected s line

instance (s : At) : (a : Act) → (t : At) → Decidable (Orderly s a t)
  | .call _ _, _ | .exec _, _ | .timer .parser, _ => instDecidableTrue
  | .timer .nb, _ => inferInstanceAs (Decidable (s.prog = ⟨0, 0⟩))
  | .parse, _ => inferInstanceAs (Decidable (∀ r ∈ s.reads false, Timely s r.1 r.2))
  | .recvTimeout, _ => inferInstanceAs (Decidable (∀ r ∈ s.reads true, Timely s r.1 r.2))
  | .modem line, _ => inferInstanceAs (Decidable (Expected s line))

/-! ## the command in progress -/

/-- what the phases of `NB_IOT` depend on -/
structure View where
  pc : ExecPc
  obj : Resp
  resp : Option Th
  prog : Progress
  /-- what the modem emitted in answer -/
  reply : List (List Char)
  /-- what the parser has not read of it -/
  uart : List (List Char)

def At.view (s : At) : View :=
  ⟨s.pc .nb, s.obj .nb, s.resp, s.prog, s.replyOf (s.cmd .nb), replyLines s.uart (s.cmd .nb)⟩

/-- the command is not out -/
structure Quiet (v : View) : Prop where
  pc : ¬ v.pc.Out
  prog : v.prog = ⟨0, 0⟩
  fresh : v.pc ≠ .idle →
    v.reply = [] ∧ v.uart = [] ∧ ∃ bufSize lineNum, v.obj = atCreateResp bufSize lineNum

/-- the lines `done` of the reply are stored, `todo` are under way -/
structure Reading (v : View) (done todo : List (List Char)) : Prop where
  pc : v.pc = .wrote ∨ v.pc = .waiting
  resp : v.resp = some .nb
  reply : v.reply = done ++ todo
  uart : v.uart = todo
  prog : v.prog = ⟨total done, done.length⟩
  buf : v.obj.buf = encode done ++ List.replicate (v.obj.bufSize - total done) nul
  plain : ∀ t ∈ done ++ todo, t ≠ [] ∧ nul ∉ t.dropLast
  fits : done ++ todo ≠ [] → total (done ++ todo) < v.obj.bufSize
  opens : OpenReply v.obj.lineNum (done ++ todo.dropLast)

/-- the reply is complete, and the call about to return -/
structure Finished (v : View) : Prop where
  pc : v.pc = .woken
  resp : v.resp = none
  prog : v.prog = ⟨0, 0⟩
  lines : v.obj.lines = v.reply.map List.dropLast

/-- the call is about to return without a reply -/
structure Lost (v : View) : Prop where
  pc : v.pc = .timedOut
  prog : v.prog = ⟨0, 0⟩

inductive CmdPhase (v : View) : Prop where
  | quiet (h : Quiet v)
  | reading (done todo : List (List Char)) (h : Reading v done todo)
  | finished (h : Finished v)
  | lost (h : Lost v)

structure ReplyInv (s : At) : Prop where
  /-- no release is pending -/
  value : s.notice.value = 0
  /-- nobody resumes the handler -/
  parser : s.pc .parser ≠ .woken
  own : OwnLines s
  phase : CmdPhase s.view

theorem reply_init : ReplyInv atInit where
  value := rfl
  parser := by decide
  own := fun _ hr => absurd hr List.not_mem_nil
  phase := .quiet ⟨id, rfl, fun h => absurd rfl h⟩

theorem CmdPhase.of_quiet {v : View} (h : CmdPhase v) (hp : ¬ v.pc.Out) : Quiet v := by
  cases h with
  | quiet h => exact h
  | reading _ _ h => rcases h.pc with e | e <;> exact absurd (by rw [e]; trivial) hp
  | finished h => exact absurd (by rw [h.pc]; trivial) hp
  | lost h => exact absurd (by rw [h.pc]; trivial) hp

theorem CmdPhase.of_reading {v : View} (h : CmdPhase v) (hp : v.pc = .wrote ∨ v.pc = .waiting) :
    ∃ done todo, Reading v done todo := by
  cases h with
  | quiet h => rcases hp with e | e <;> exact absurd (by rw [e]; trivial) h.pc
  | reading done todo h => exact ⟨done, todo, h⟩
  | finished h => rcases hp with e | e <;> cases e.symm.trans h.pc
  | lost h => rcases hp with e | e <;> cases e.symm.trans h.pc

theorem CmdPhase.of_finished {v : View} (h : CmdPhase v) (hp : v.pc = .woken) : Finished v := by
  cases h with
  | quiet h => exact absurd (by rw [hp]; trivial) h.pc
  | reading _ _ h => rcases h.pc with e | e <;> cases hp.symm.trans e
  | finished h => exact h
  | lost h => cases hp.symm.trans h.pc

theorem CmdPhase.of_lost {v : View} (h : CmdPhase v) (hp : v.pc = .timedOut) : Lost v := by
  cases h with
  | quiet h => exact absurd (by rw [hp]; trivial) h.pc
  | reading _ _ h => rcases h.pc with e | e <;> cases hp.symm.trans e
  | finished h => cases hp.symm.trans h.pc
  | lost h => exact h

/-- a step that the command of `NB_IOT` does not notice -/
theorem phase_eq {s t : At} (h : CmdPhase s.view) (hp : t.pc .nb = s.pc .nb)
    (ho : t.obj .nb = s.obj .nb) (hc : t.cmd .nb = s.cmd .nb) (hr : t.resp = s.resp)
    (hg : t.prog = s.prog) (he : t.replyOf (s.cmd .nb) = s.replyOf (s.cmd .nb))
    (hu : replyLines t.uart (s.cmd .nb) = replyLines s.uart (s.cmd .nb)) : CmdPhase t.view := by
  have e : t.view = s.view := by
    unfold At.view
    rw [hp, ho, hc, hr, hg, he, hu]
  rw [e]
  exact h

theorem own_eq {s t : At} (h : OwnLines s) (hr : t.rets = s.rets) (he : t.emitted = s.emitted) :
    OwnLines t := by
  unfold OwnLines At.replyOf
  rw [hr, he]
  exact h

theorem replyLines_fresh {l : List Reply} {k : Nat} (h : ∀ x ∈ l, ∀ j ∈ x.answers, j < k) :
    replyLines l k = [] := by
  unfold replyLines
  rw [List.filter_eq_nil_iff.mpr, List.map_nil]
  intro x hx hd
  have := h x hx k (of_decide_eq_true hd).1
  omega

/-! ## `at_obj_exec_cmd` -/

theorem reply_call {s t : At} {bufSize lineNum : Nat} (hn : Numbered s) (h : ReplyInv s)
    (ht : nbCallStep s bufSize lineNum = some t) : ReplyInv t := by
  obtain ⟨hp, rfl⟩ := call_cases ht
  obtain ⟨hpc, hcmd, hobj⟩ := begin_self s .nb bufSize lineNum
  have hq := h.phase.of_quiet (show ¬ (s.pc .nb).Out by rw [hp]; exact id)
  refine ⟨h.value, ?_, own_eq h.own rfl rfl, .quiet ⟨?_, hq.prog, fun _ => ⟨?_, ?_, _, _, hobj⟩⟩⟩
  · show Function.update s.pc .nb .lock .parser ≠ _
    rw [update_nb_other]
    exact h.parser
  · show ¬ ((s.begin .nb bufSize lineNum).pc .nb).Out
    rw [hpc]
    exact id
  · show replyLines s.emitted ((s.begin .nb bufSize lineNum).cmd .nb) = []
    rw [hcmd]
    exact replyLines_fresh fun x hx => hn.lines x (Or.inr hx)
  · show replyLines s.uart ((s.begin .nb bufSize lineNum).cmd .nb) = []
    rw [hcmd]
    exact replyLines_fresh fun x hx => hn.lines x (Or.inl hx)

theorem Quiet.write {v : View} (h : Quiet v) (hp : v.pc ≠ .idle) :
    Reading { v with pc := .wrote, resp := some .nb } [] [] := by
  obtain ⟨hreply, huart, b, n, hobj⟩ := h.fresh hp
  refine ⟨Or.inl rfl, rfl, hreply, huart, h.prog, ?_, fun t ht => absurd ht List.not_mem_nil,
    fun hne => absurd rfl hne, fun i hi => absurd hi (Nat.not_lt_zero i)⟩
  show v.obj.buf = _
  rw [hobj]
  rfl

theorem Reading.wait {v : View} {done todo : List (List Char)} (h : Reading v done todo) :
    Reading { v with pc := .waiting, obj := { v.obj with lineCounts := 0 } } done todo :=
  { h with pc := Or.inr rfl }

theorem phase_move {s t : At} {p : ExecPc}
    (h : CmdPhase { s.view with pc := p, obj := t.obj .nb, resp := t.resp })
    (hp : t.pc = Function.update s.pc .nb p) (hc : t.cmd = s.cmd) (hg : t.prog = s.prog)
    (he : t.emitted = s.emitted) (hu : t.uart = s.uart) : CmdPhase t.view := by
  have e : t.pc .nb = p := by
    rw [hp]
    exact Function.update_self _ _ _
  unfold At.view At.replyOf at h ⊢
  rw [e, hc, hg, he, hu]
  exact h

/-- a call returns: its response holds its own lines if it returns `RT_EOK` -/
theorem own_finish {s : At} (h : OwnLines s) {t : Th} {result : RtErr}
    (hr : result = rtEok → (s.obj t).lines = (s.replyOf (s.cmd t)).map List.dropLast) :
    OwnLines (s.finish t result) := by
  intro r hm hok
  rcases List.mem_append.mp hm with hm | hm
  · exact h r hm hok
  · rw [List.mem_singleton.mp hm] at hok ⊢
    exact hr hok

theorem reply_finish_nb {s : At} (h : ReplyInv s) (hg : s.prog = ⟨0, 0⟩) {result : RtErr}
    (hr : result = rtEok → (s.obj .nb).lines = (s.replyOf (s.cmd .nb)).map List.dropLast) :
    ReplyInv (s.finish .nb result) := by
  have hself := finish_pc_self s .nb result
  refine ⟨h.value, ?_, own_finish h.own hr, .quiet ⟨?_, hg, fun hne => absurd hself hne⟩⟩
  · have hother : (s.finish .nb result).pc .parser = _ := finish_pc_other s .nb result
    rw [hother]
    split
    · decide
    · exact h.parser
  · show ¬ ((s.finish .nb result).pc .nb).Out
    rw [hself]
    exact id

theorem reply_exec_nb {s t : At} (h : ReplyInv s) (ht : execStep s .nb = some t) : ReplyInv t := by
  have hpar : ∀ v, Function.update s.pc .nb v .parser ≠ .woken := fun v => by
    rw [update_nb_other]
    exact h.parser
  have hno : ¬ 0 < s.notice.value := by
    rw [h.value]
    decide
  -- a move before the command is written
  have hquiet : ∀ {p v : ExecPc} (r : Option Th), s.pc .nb = p → ¬ p.Out → p ≠ .idle → ¬ v.Out →
      CmdPhase { s.view with pc := v, resp := r } := by
    intro p v r hp hout hne hv
    have hq := h.phase.of_quiet (show ¬ (s.pc .nb).Out by rw [hp]; exact hout)
    exact .quiet ⟨hv, hq.prog, fun _ => hq.fresh (by show s.pc .nb ≠ _; rw [hp]; exact hne)⟩
  cases exec_cases ht with
  | take hp =>
    exact ⟨h.value, hpar .locked, own_eq h.own rfl rfl,
      phase_move (hquiet _ hp id (by decide) id) rfl rfl rfl rfl rfl⟩
  | suspend hp =>
    exact ⟨h.value, hpar .lockWait, own_eq h.own rfl rfl,
      phase_move (hquiet _ hp id (by decide) id) rfl rfl rfl rfl rfl⟩
  | write hp =>
    have hq := h.phase.of_quiet (show ¬ (s.pc .nb).Out by rw [hp]; exact id)
    exact ⟨h.value, hpar .wrote, own_eq h.own rfl rfl, phase_move (s := s)
      (.reading [] [] (hq.write (by show s.pc .nb ≠ _; rw [hp]; decide))) rfl rfl rfl rfl rfl⟩
  | token _ hv => exact absurd hv hno
  | wait hp =>
    obtain ⟨done, todo, hr⟩ := h.phase.of_reading (Or.inl hp)
    have hobj : Function.update s.obj .nb { s.obj .nb with lineCounts := 0 } .nb =
      { s.obj .nb with lineCounts := 0 } := Function.update_self _ _ _
    refine ⟨h.value, hpar .waiting, own_eq h.own rfl rfl,
      phase_move (s := s) (.reading done todo ?_) rfl rfl rfl rfl rfl⟩
    show Reading { s.view with
      pc := _, obj := Function.update s.obj .nb { s.obj .nb with lineCounts := 0 } .nb, resp := _ }
      _ _
    rw [hobj]
    exact hr.wait
  | done hp =>
    have hf := h.phase.of_finished hp
    exact reply_finish_nb h hf.prog fun _ => hf.lines
  | giveUp hp =>
    have h' : ReplyInv { s with status := .timeout } :=
      ⟨h.value, h.parser, own_eq h.own rfl rfl, h.phase⟩
    exact reply_finish_nb h' (h.phase.of_lost hp).prog fun hc => absurd hc (by decide)

theorem quiet_eq {s t : At} (h : Quiet s.view) (hp : t.pc .nb = s.pc .nb)
    (ho : t.obj .nb = s.obj .nb) (hc : t.cmd = s.cmd) (hg : t.prog = s.prog)
    (he : t.emitted = s.emitted) (hu : t.uart = s.uart) : Quiet t.view := by
  have e : t.view = { s.view with resp := t.resp } := by
    unfold At.view At.replyOf
    rw [hp, ho, hc, hg, he, hu]
  rw [e]
  exact ⟨h.pc, h.prog, h.fresh⟩

theorem reply_finish_handler {s : At} (h : ReplyInv s) (hq : Quiet s.view) {result : RtErr}
    (hr : result ≠ rtEok) : ReplyInv (s.finish .parser result) := by
  have hself := finish_pc_self s .parser result
  have hother : (s.finish .parser result).pc .nb = _ := finish_pc_other s .parser result
  refine ⟨h.value, by rw [hself]; decide, own_finish h.own fun hc => absurd hc hr,
    .quiet ⟨?_, hq.prog, fun hne => hq.fresh fun hc => hne ?_⟩⟩
  · show ¬ ((s.finish .parser result).pc .nb).Out
    rw [hother]
    split
    · exact id
    · exact hq.pc
  · show (s.finish .parser result).pc .nb = _
    rw [hother, if_neg]
    · exact hc
    · show s.pc .nb ≠ _
      rw [show s.pc .nb = .idle from hc]
      decide

theorem reply_exec_handler {s t : At} (hl : Locked s) (h : ReplyInv s)
    (ht : execStep s .parser = some t) : ReplyInv t := by
  have hself : ∀ v, v ≠ .woken → Function.update s.pc .parser v .parser ≠ .woken := fun v hv => by
    rw [Function.update_self]
    exact hv
  have hmove : ∀ v, Function.update s.pc .parser v .nb = s.pc .nb := update_other_nb s.pc
  have hobj : ∀ r, Function.update s.obj .parser r .nb = s.obj .nb :=
    fun r => Function.update_of_ne (by decide) r s.obj
  -- a thread that holds the lock keeps `NB_IOT` out of its command
  have hquiet : (s.pc .parser).Owns → Quiet s.view := by
    intro ho
    refine h.phase.of_quiet fun hout => hl.alone ho (show Th.nb ≠ .parser by decide) ?_
    exact hout.owns
  cases exec_cases ht with
  | take =>
    exact ⟨h.value, hself .locked (by decide), own_eq h.own rfl rfl,
      phase_eq h.phase (hmove .locked) rfl rfl rfl rfl rfl rfl⟩
  | suspend =>
    exact ⟨h.value, hself .lockWait (by decide), own_eq h.own rfl rfl,
      phase_eq h.phase (hmove .lockWait) rfl rfl rfl rfl rfl rfl⟩
  | write hp =>
    exact ⟨h.value, hself .wrote (by decide), own_eq h.own rfl rfl,
      .quiet (quiet_eq (hquiet (by rw [hp]; trivial)) (hmove .wrote) rfl rfl rfl rfl rfl)⟩
  | token _ hv =>
    rw [h.value] at hv
    exact absurd hv (by decide)
  | wait hp =>
    exact ⟨h.value, hself .waiting (by decide), own_eq h.own rfl rfl,
      .quiet (quiet_eq (hquiet (by rw [hp]; trivial)) (hmove .waiting)
        (hobj { s.obj .parser with lineCounts := 0 }) rfl rfl rfl rfl)⟩
  | done hp => exact absurd hp h.parser
  | giveUp hp =>
    have h' : ReplyInv { s with status := .timeout } :=
      ⟨h.value, h.parser, own_eq h.own rfl rfl, h.phase⟩
    exact reply_finish_handler h' (hquiet (by rw [hp]; trivial)) (by decide)

theorem reply_timer {s t : At} {th : Th} (h : ReplyInv s) (ht : timerStep s th = some t)
    (hg : th = .nb → s.prog = ⟨0, 0⟩) : ReplyInv t := by
  obtain ⟨-, rfl⟩ := timer_cases ht
  cases th with
  | nb =>
    refine ⟨h.value, ?_, own_eq h.own rfl rfl,
      phase_move (s := s) (p := .timedOut) (.lost ⟨rfl, hg rfl⟩) rfl rfl rfl rfl rfl⟩
    show Function.update s.pc .nb .timedOut .parser ≠ _
    rw [update_nb_other]
    exact h.parser
  | parser =>
    refine ⟨h.value, ?_, own_eq h.own rfl rfl, ?_⟩
    · show Function.update s.pc .parser .timedOut .parser ≠ _
      rw [Function.update_self]
      decide
    · exact phase_eq h.phase (update_other_nb s.pc .timedOut) rfl rfl rfl rfl rfl rfl

/-! ## `client_parser` -/

theorem openReply_snoc {lineNum : Nat} {ls : List (List Char)} {t : List Char}
    (h : OpenReply lineNum ls)
    (ht : respEnd lineNum (ls.length + 1) (t.dropLast ++ [nul]) = none) :
    OpenReply lineNum (ls ++ [t]) := by
  intro i hi x hx
  rw [List.length_append, List.length_singleton] at hi
  rcases Nat.lt_or_ge i ls.length with hlt | hge
  · rw [List.getElem?_append_left hlt] at hx
    exact h i hlt x hx
  · obtain rfl : i = ls.length := by omega
    rw [List.getElem?_concat_length] at hx
    cases hx
    exact ht

theorem openReply_mid {lineNum : Nat} {l r : List (List Char)} {t : List Char}
    (h : OpenReply lineNum (l ++ t :: r)) :
    respEnd lineNum (l.length + 1) (t.dropLast ++ [nul]) = none := by
  refine h l.length ?_ t ?_
  · rw [List.length_append, List.length_cons]
    omega
  · rw [List.getElem?_append_right (Nat.le_refl _), Nat.sub_self]
    rfl

theorem respond_more {r : Resp} {p : Progress} {line : List Char} (status : RespStatus)
    (hne : line ≠ []) (hfit : p.respBufLen + line.length < r.bufSize)
    (hend : respEnd r.lineNum (p.lineCounts + 1) (line.dropLast ++ [nul]) = none) :
    respond r p status line = (r.copy p.respBufLen (line.dropLast ++ [nul]),
      ⟨p.respBufLen + line.length, p.lineCounts + 1⟩, status, false) := by
  have hnum : (r.copy p.respBufLen (line.dropLast ++ [nul])).lineNum = r.lineNum := rfl
  unfold respond
  simp only [length_data hne, if_pos hfit, hnum, hend]

theorem respond_last {r : Resp} {p : Progress} {line : List Char} (status : RespStatus)
    {st : RespStatus} (hne : line ≠ []) (hfit : p.respBufLen + line.length < r.bufSize)
    (hend : respEnd r.lineNum (p.lineCounts + 1) (line.dropLast ++ [nul]) = some st) :
    respond r p status line = ({ r.copy p.respBufLen (line.dropLast ++ [nul]) with
      lineCounts := p.lineCounts + 1 }, ⟨0, 0⟩, st, true) := by
  have hnum : (r.copy p.respBufLen (line.dropLast ++ [nul])).lineNum = r.lineNum := rfl
  unfold respond
  simp only [length_data hne, if_pos hfit, hnum, hend]

theorem replyLines_append (l r : List Reply) (k : Nat) :
    replyLines (l ++ r) k = replyLines l k ++ replyLines r k := by
  unfold replyLines
  rw [List.filter_append, List.map_append]

theorem replyLines_cons (r : Reply) (l : List Reply) (k : Nat) :
    replyLines (r :: l) k = replyLines [r] k ++ replyLines l k :=
  replyLines_append [r] l k

theorem replyLines_pos {line : Reply} {k : Nat} (h : line.answers = some k)
    (hurc : getUrcObj line.text = none) : replyLines [line] k = [line.text] := by
  have hc : line.answers = some k ∧ getUrcObj line.text = none := ⟨h, hurc⟩
  unfold replyLines
  rw [List.filter_singleton, decide_eq_true hc]
  rfl

theorem replyLines_neg {line : Reply} {k : Nat}
    (h : ¬ (line.answers = some k ∧ getUrcObj line.text = none)) : replyLines [line] k = [] := by
  unfold replyLines
  rw [List.filter_singleton, decide_eq_false h]
  rfl

theorem Reading.store {v : View} {done todo : List (List Char)} {text : List Char}
    (h : Reading v done (text :: todo))
    (hend : respEnd v.obj.lineNum (v.prog.lineCounts + 1) (text.dropLast ++ [nul]) = none) :
    Reading { v with
      obj := v.obj.copy v.prog.respBufLen (text.dropLast ++ [nul])
      prog := ⟨v.prog.respBufLen + text.length, v.prog.lineCounts + 1⟩
      uart := todo } (done ++ [text]) todo := by
  have e : done ++ [text] ++ todo = done ++ text :: todo := by
    rw [List.append_assoc, List.singleton_append]
  have htext := h.plain text (List.mem_append_right _ List.mem_cons_self)
  rw [h.prog] at hend ⊢
  refine ⟨h.pc, h.resp, e ▸ h.reply, rfl, ?_, ?_, e ▸ h.plain, fun _ => ?_, ?_⟩
  · show Progress.mk _ _ = _
    rw [total_append, total_singleton, List.length_append, List.length_singleton]
  · show (v.obj.copy (total done) _).buf = _ ++ List.replicate (v.obj.bufSize - _) _
    rw [copy_encode (fun x hx => (h.plain x (List.mem_append_left _ hx)).1) h.buf htext.1,
      total_append, total_singleton, ← Nat.sub_sub]
  · rw [e]
    exact h.fits (List.append_ne_nil_of_right_ne_nil _ (List.cons_ne_nil _ _))
  · show OpenReply v.obj.lineNum _
    cases todo with
    | nil =>
      have ho := h.opens
      rw [List.dropLast_singleton, List.append_nil] at ho
      rw [List.dropLast_nil, List.append_nil]
      exact openReply_snoc ho hend
    | cons x xs =>
      have ho := h.opens
      rw [List.dropLast_cons_of_ne_nil (List.cons_ne_nil _ _)] at ho
      rw [List.append_assoc]
      exact ho

theorem Reading.complete {v : View} {done : List (List Char)} {text : List Char}
    (h : Reading v done [text]) (uart : List (List Char)) :
    Finished { v with
      pc := .woken
      obj := { v.obj.copy v.prog.respBufLen (text.dropLast ++ [nul]) with
        lineCounts := v.prog.lineCounts + 1 }
      resp := none
      prog := ⟨0, 0⟩
      uart } := by
  have hne : ∀ x ∈ done, x ≠ [] := fun x hx => (h.plain x (List.mem_append_left _ hx)).1
  have htext := h.plain text (List.mem_append_right _ List.mem_cons_self)
  refine ⟨rfl, rfl, rfl, ?_⟩
  show Resp.lines _ = v.reply.map List.dropLast
  rw [h.reply, h.prog, ← lines_encode (fun t ht => (h.plain t ht).2)
    (List.replicate (v.obj.bufSize - total done - text.length) nul), ← copy_encode hne h.buf
    htext.1, List.length_append, List.length_singleton]
  rfl

theorem phase_drop {v : View} (h : CmdPhase v) (hr : v.resp = none) {uart : List (List Char)}
    (hu : v.uart = [] → uart = []) : CmdPhase { v with uart } := by
  cases h with
  | quiet h =>
    exact .quiet ⟨h.pc, h.prog, fun hne =>
      ⟨(h.fresh hne).1, hu (h.fresh hne).2.1, (h.fresh hne).2.2⟩⟩
  | reading done todo h => cases hr.symm.trans h.resp
  | finished h => exact .finished { h with }
  | lost h => exact .lost { h with }

/-- a stream loses the lines that are read, and no others -/
theorem replyLines_begun (l : List Reply) (k c : Nat) :
    replyLines l c = replyLines (begun l k) c ++ replyLines (dropChars l k) c := by
  induction l generalizing k with
  | nil => rfl
  | cons r l ih =>
    rw [begun, dropChars]
    by_cases h0 : k = 0
    · rw [if_pos h0, if_pos h0]
      rfl
    · rw [if_neg h0, if_neg h0, replyLines_cons r (begun _ _), replyLines_cons r l,
        List.append_assoc]
      by_cases hk : r.chars.length ≤ k
      · rw [if_pos hk, ← ih]
      · -- it is the last line that is begun
        have hrest : replyLines [⟨r.chars.drop k, none, []⟩] c = [] :=
          replyLines_neg fun hc => by cases hc.1
        rw [if_neg hk, Nat.sub_eq_zero_of_le (by omega), begun_zero, replyLines_cons ⟨_, _, _⟩ l,
          hrest]
        rfl

theorem reply_drop {s : At} (h : ReplyInv s) (k : Nat)
    (hno : replyLines (begun s.uart k) (s.cmd .nb) = [] ∨ s.resp = none) :
    ReplyInv { s with uart := dropChars s.uart k } := by
  have hsplit := replyLines_begun s.uart k (s.cmd .nb)
  refine ⟨h.value, h.parser, own_eq h.own rfl rfl, ?_⟩
  rcases hno with hno | hr
  · rw [hno, List.nil_append] at hsplit
    exact phase_eq h.phase rfl rfl rfl rfl rfl rfl hsplit.symm
  · refine phase_drop h.phase hr fun hnil => ?_
    rw [show s.view.uart = replyLines s.uart (s.cmd .nb) from rfl, hsplit] at hnil
    exact (List.append_eq_nil_iff.mp hnil).2

theorem view_store (s : At) (rest : List Reply) (r : Resp × Progress × RespStatus × Bool) :
    (At.store { s with uart := rest } .nb r).view =
      { s.view with obj := r.1, prog := r.2.1, uart := replyLines rest (s.cmd .nb) } := by
  unfold At.view
  rw [store_obj]
  rfl

theorem reply_last {s : At} (h : ReplyInv s) (rest : List Reply)
    (r : Resp × Progress × RespStatus × Bool) (hs : s.notice.suspended = [.nb])
    (hf : Finished { s.view with
      pc := .woken, obj := r.1, resp := none, prog := r.2.1
      uart := replyLines rest (s.cmd .nb) }) :
    ReplyInv (At.release { At.store { s with uart := rest } .nb r with resp := none }) := by
  have hview := view_store s rest r
  have hobj := store_obj { s with uart := rest } .nb r
  generalize hu : At.store { s with uart := rest } .nb r = u at hview hobj ⊢
  have hn : u.notice = s.notice := by
    rw [← hu]
    rfl
  have hsu : u.notice.suspended = [.nb] := by
    rw [hn]
    exact hs
  rcases release_cases { u with resp := none } with ⟨hs', -⟩ | ⟨t, ts, hs', e⟩
  · cases hsu.symm.trans hs'
  · obtain ⟨rfl, rfl⟩ := List.cons.inj (hsu.symm.trans hs')
    rw [e]
    refine ⟨?_, ?_, ?_, phase_move (s := u) (p := .woken) (.finished ?_) rfl rfl rfl rfl rfl⟩
    · show u.notice.value = 0
      rw [hn]
      exact h.value
    · show Function.update u.pc .nb .woken .parser ≠ _
      rw [update_nb_other, ← hu]
      exact h.parser
    · subst hu
      exact own_eq h.own rfl rfl
    · rw [hview]
      show Finished { s.view with
        pc := _, obj := u.obj .nb, resp := none, prog := r.2.1
        uart := replyLines rest (s.cmd .nb) }
      rw [hobj]
      exact hf

/-- a response that is pending outside the handler is that of `NB_IOT`, and its reply is read -/
theorem reading_of_pending {s : At} (hl : Locked s) (h : ReplyInv s) (hidle : s.pc .parser = .idle)
    (hresp : s.resp ≠ none) (hpc : s.pc .nb ≠ .timedOut) :
    s.resp = some .nb ∧ ∃ done todo, Reading s.view done todo := by
  have hnb : s.resp = some .nb := by
    cases hr : s.resp with
    | none => exact absurd hr hresp
    | some t =>
      cases t with
      | nb => rfl
      | parser =>
        have hout := hl.resp .parser hr
        rw [hidle] at hout
        exact absurd hout id
  refine ⟨hnb, ?_⟩
  cases h.phase with
  | quiet hq => exact absurd (hl.resp .nb hnb) hq.pc
  | reading done todo hr => exact ⟨done, todo, hr⟩
  | finished hf => cases hnb.symm.trans hf.resp
  | lost hf => exact absurd hf.pc hpc

/-- there is room for the next line -/
theorem Reading.room {v : View} {done todo : List (List Char)} {text : List Char}
    (h : Reading v done (text :: todo)) :
    v.prog.respBufLen + text.length < v.obj.bufSize := by
  have hb := h.fits (List.append_ne_nil_of_right_ne_nil _ (List.cons_ne_nil _ _))
  rw [← List.singleton_append, total_append, total_append, total_singleton] at hb
  rw [h.prog]
  show total done + _ < _
  exact Nat.lt_of_le_of_lt (by omega) hb

/-- an open reply ends only with its last line -/
theorem Reading.last {v : View} {done todo : List (List Char)} {text : List Char}
    (h : Reading v done (text :: todo)) {st : RespStatus}
    (hend : respEnd v.obj.lineNum (v.prog.lineCounts + 1) (text.dropLast ++ [nul]) = some st) :
    todo = [] := by
  by_contra hx
  have ho := h.opens
  rw [List.dropLast_cons_of_ne_nil hx] at ho
  have hno := openReply_mid ho
  have hcount : done.length = v.prog.lineCounts := congrArg Progress.lineCounts h.prog.symm
  rw [hcount] at hno
  cases hno.symm.trans hend

theorem reply_response {s : At} (hl : Locked s) (h : ReplyInv s) {line : Reply}
    {rest : List Reply} (hu : s.uart = line :: rest) (hidle : s.pc .parser = .idle)
    (hurc : getUrcObj line.text = none) (hresp : s.resp ≠ none)
    (hans : line.answers = some (s.cmd .nb)) (hpc : s.pc .nb ≠ .timedOut)
    (hlast : s.pc .nb = .wrote →
      respEnd (s.obj .nb).lineNum (s.prog.lineCounts + 1) (line.text.dropLast ++ [nul]) = none) :
    ReplyInv (At.response { s with uart := dropChars s.uart line.chars.length } line.text) := by
  obtain ⟨hnb, done, todo, hr⟩ := reading_of_pending hl h hidle hresp hpc
  obtain rfl : todo = line.text :: replyLines rest (s.cmd .nb) := by
    rw [← hr.uart, ← List.singleton_append, ← replyLines_pos hans hurc, ← replyLines_cons]
    show replyLines s.uart (s.cmd .nb) = _
    rw [hu]
  have hplain := hr.plain line.text (List.mem_append_right _ List.mem_cons_self)
  rw [hu, dropChars_line hplain.1]
  have hfit : s.prog.respBufLen + line.text.length < (s.obj .nb).bufSize := hr.room
  cases hend : respEnd (s.obj .nb).lineNum (s.prog.lineCounts + 1)
    (line.text.dropLast ++ [nul]) with
  | none =>
    have hcalc := respond_more s.status hplain.1 hfit hend
    rw [response_more (s := { s with uart := rest }) hnb hcalc rfl]
    refine ⟨h.value, h.parser, own_eq h.own rfl rfl, ?_⟩
    rw [view_store]
    exact .reading _ _ (hr.store hend)
  | some st =>
    have hnil : replyLines rest (s.cmd .nb) = [] := hr.last hend
    have hwait : s.pc .nb = .waiting := by
      refine hr.pc.resolve_left fun hw => ?_
      rw [hlast hw] at hend
      cases hend
    have hs : s.notice.suspended = [.nb] := by
      have hs := hl.waiters_owner (t := .nb) (by rw [hwait]; trivial)
      rw [if_pos hwait] at hs
      exact hs
    have hcalc := respond_last s.status hplain.1 hfit hend
    rw [response_last (s := { s with uart := rest }) hnb hcalc rfl]
    rw [hnil] at hr
    exact reply_last h rest _ hs (hr.complete _)

theorem reads_ne_nil {s : At} {late : Bool} {r : Option (List Char) × Nat}
    (h : s.reads late = some r) : s.uart ≠ [] := by
  intro hu
  unfold At.reads at h
  rw [hu] at h
  cases h

theorem reply_parse {s t : At} {late : Bool} (hl : Locked s) (h : ReplyInv s)
    (ht : parseStep s late = some t) (hg : ∀ r ∈ s.reads late, Timely s r.1 r.2) : ReplyInv t := by
  obtain ⟨hidle, line, k, hreads, hr⟩ := parse_cases ht
  have htime : Timely s line k := hg (line, k) hreads
  -- a line that is no ordinary one takes nothing of the reply
  have hdrop : (∀ data ∈ line, getUrcObj data ≠ none) →
      ReplyInv { s with uart := dropChars s.uart k } := by
    intro hno
    refine reply_drop h k ?_
    by_cases hresp : s.resp = none
    · exact Or.inr hresp
    · exact Or.inl ((htime hresp).2 hno)
  cases hr with
  | lost => exact hdrop (by simp)
  | closing hc =>
    -- the handler begins its command; `NB_IOT` does not notice
    rename_i data
    have h' := hdrop (by
      intro x hx
      rw [← Option.some.inj hx, hc.1]
      exact Option.some_ne_none _)
    obtain ⟨hself, -, -⟩ := begin_self { s with uart := dropChars s.uart k } .parser 64 2
    obtain ⟨hp, hcmd, hobj⟩ := begin_other { s with uart := dropChars s.uart k }
      (show Th.nb ≠ .parser by decide) 64 2
    exact ⟨h.value, by rw [hself]; decide, own_eq h.own rfl rfl,
      phase_eq h'.phase hp hobj hcmd rfl rfl rfl rfl⟩
  | note hc hu =>
    refine hdrop ?_
    intro x hx
    rw [← Option.some.inj hx]
    exact Option.isSome_iff_ne_none.mp hu
  | line hurc =>
    rename_i data
    by_cases hresp : s.resp = none
    · rw [response_none (s := { s with uart := dropChars s.uart k }) hresp]
      exact reply_drop h k (Or.inr hresp)
    · obtain ⟨hhead, hpc, hlast⟩ := (htime hresp).1 data rfl hurc
      obtain ⟨x, rest, hu⟩ := List.exists_cons_of_ne_nil (reads_ne_nil hreads)
      obtain ⟨rfl, rfl, hans⟩ := hhead x (by rw [hu]; rfl)
      exact reply_response hl h hu hidle hurc hresp hans hpc hlast

/-! ## the modem -/

/-- the state after the modem has emitted a line -/
def At.emit (s : At) (line : Reply) : At :=
  { s with uart := s.uart ++ [line], emitted := s.emitted ++ [line] }

theorem replyOf_emit (s : At) (line : Reply) (k : Nat) :
    (s.emit line).replyOf k = s.replyOf k ++ replyLines [line] k :=
  replyLines_append _ _ _

theorem Reading.emit {v : View} {done todo : List (List Char)} {text : List Char}
    (h : Reading v done todo) (hne : text ≠ []) (hnul : nul ∉ text.dropLast)
    (hopen : OpenReply v.obj.lineNum v.reply) (hfits : total (v.reply ++ [text]) < v.obj.bufSize) :
    Reading { v with reply := v.reply ++ [text], uart := v.uart ++ [text] } done
      (todo ++ [text]) := by
  have e : done ++ (todo ++ [text]) = done ++ todo ++ [text] := (List.append_assoc _ _ _).symm
  rw [h.reply] at hopen hfits
  refine ⟨h.pc, h.resp, ?_, ?_, h.prog, h.buf, ?_, fun _ => e ▸ hfits, ?_⟩
  · show v.reply ++ [text] = _
    rw [h.reply, e]
  · show v.uart ++ [text] = _
    rw [h.uart]
  · intro t ht
    rw [e] at ht
    rcases List.mem_append.mp ht with ht | ht
    · exact h.plain t ht
    · rw [List.mem_singleton.mp ht]
      exact ⟨hne, hnul⟩
  · rw [List.dropLast_concat]
    exact hopen

theorem view_emit {s : At} {line : Reply} (hans : line.answers = some (s.cmd .nb))
    (hurc : getUrcObj line.text = none) : (s.emit line).view =
      { s.view with reply := s.view.reply ++ [line.text], uart := s.view.uart ++ [line.text] } := by
  have hreply : (s.emit line).replyOf (s.cmd .nb) = s.replyOf (s.cmd .nb) ++ [line.text] := by
    rw [replyOf_emit, replyLines_pos hans hurc]
  have huart : replyLines (s.uart ++ [line]) (s.cmd .nb) =
      replyLines s.uart (s.cmd .nb) ++ [line.text] := by
    rw [replyLines_append, replyLines_pos hans hurc]
  show View.mk _ _ _ _ ((s.emit line).replyOf (s.cmd .nb))
    (replyLines (s.uart ++ [line]) (s.cmd .nb)) = _
  rw [hreply, huart]
  rfl

theorem reply_emit {s : At} {line : Reply} (h : ReplyInv s) (hg : Expected s line) :
    ReplyInv (s.emit line) := by
  refine ⟨h.value, h.parser, fun r hr hok => ?_, ?_⟩
  · -- a call that has returned `RT_EOK` gets no further lines
    have hno : ¬ (line.answers = some r.cmd ∧ getUrcObj line.text = none) := fun hc =>
      (hg hc.2 r.cmd hc.1).1 r hr rfl hok
    rw [replyOf_emit, replyLines_neg hno, List.append_nil]
    exact h.own r hr hok
  · by_cases hc : line.answers = some (s.cmd .nb) ∧ getUrcObj line.text = none
    · obtain ⟨hans, hurc⟩ := hc
      rw [view_emit hans hurc]
      have hnext := (hg hurc _ hans).2 rfl
      cases h.phase with
      | quiet hq =>
        by_cases hidle : s.pc .nb = .idle
        · exact .quiet ⟨hq.pc, hq.prog, fun hne => absurd hidle hne⟩
        · -- it was not written, so nothing answers it
          have hno : s.pc .nb ≠ .timedOut := fun hc => hq.pc (by
            show (s.pc .nb).Out
            rw [hc]
            trivial)
          rcases (hnext hidle hno).1 with hw | hw <;>
            exact absurd (by show (s.pc .nb).Out; rw [hw]; trivial) hq.pc
      | reading done todo hr =>
        have hpc : s.pc .nb = .wrote ∨ s.pc .nb = .waiting := hr.pc
        have hidle : s.pc .nb ≠ .idle := by rcases hpc with e | e <;> rw [e] <;> decide
        have hno : s.pc .nb ≠ .timedOut := by rcases hpc with e | e <;> rw [e] <;> decide
        obtain ⟨-, hne, hnul, hopen, hfits⟩ := hnext hidle hno
        exact .reading _ _ (hr.emit hne hnul hopen hfits)
      | finished hf =>
        have hw : s.pc .nb = .woken := hf.pc
        rcases (hnext (by rw [hw]; decide) (by rw [hw]; decide)).1 with hc | hc <;>
          cases hw.symm.trans hc
      | lost hf => exact .lost ⟨hf.pc, hf.prog⟩
    · refine phase_eq h.phase rfl rfl rfl rfl rfl ?_ ?_
      · rw [replyOf_emit, replyLines_neg hc, List.append_nil]
      · show replyLines (s.uart ++ [line]) _ = _
        rw [replyLines_append, replyLines_neg hc, List.append_nil]

/-! ## runs -/

theorem reply_step (s : At) (a : Act) (t : At) (hl : Locked s) (hn : Numbered s) (h : ReplyInv s)
    (ht : atStep s a = some t) (hg : Orderly s a t) : ReplyInv t := by
  cases a with
  | call bufSize lineNum => exact reply_call hn h ht
  | exec th =>
    cases th with
    | nb => exact reply_exec_nb h ht
    | parser => exact reply_exec_handler hl h ht
  | timer th =>
    refine reply_timer h ht fun e => ?_
    subst e
    exact hg
  | parse | recvTimeout => exact reply_parse hl h ht hg
  | modem line =>
    obtain ⟨-, rfl⟩ := modem_cases ht
    exact reply_emit h hg

/-- **In an orderly run every call that returned `RT_EOK` holds the lines of its own reply.** -/
theorem ownLines_of_orderly (as : List Act) (h : Trace.Along atStep Orderly atInit as) :
    Trace.Along atStep (fun _ _ t => OwnLines t) atInit as := by
  refine Trace.Along.imp_of_inv (I := fun s => Locked s ∧ Numbered s ∧ ReplyInv s)
    (fun s a t hs ht hg => ?_) ⟨locked_init, numbered_init, reply_init⟩ h
  obtain ⟨hl, hn, hr⟩ := hs
  have hr' := reply_step s a t hl hn hr ht hg
  exact ⟨hr'.own, locked_step s a t hl ht, numbered_step s a t hn hl ht, hr'⟩

/-- a command that times out, its `OK` between the commands, then the answer to `AT+CIMI` with a
notification between its lines -/
def cimiRun : List Act :=
  [.call 64 0, .exec .nb, .exec .nb, .exec .nb, .timer .nb, .exec .nb, .modem (okReply 0), .parse,
    .call 64 0, .exec .nb, .exec .nb, .exec .nb, .modem ⟨"460\r\n".toList, some 1, []⟩,
    .modem ⟨"+HTTPNMIC:5,1,0,0\r\n".toList, none, "ok\n".toList⟩, .parse, .modem (okReply 1),
    .parse, .parse, .exec .nb]

theorem ownLines_of_orderly_cimi : Trace.Along atStep (fun _ _ t => OwnLines t) atInit cimiRun :=
  ownLines_of_orderly cimiRun (by decide +kernel)

/-- the `OK` of a command that timed out comes during the next one -/
def lateRun : List Act :=
  [.call 64 0, .exec .nb, .exec .nb, .exec .nb, .timer .nb, .exec .nb,
    .call 64 0, .exec .nb, .exec .nb, .exec .nb, .modem (okReply 0), .parse, .exec .nb]

theorem ownLines_fails : ¬ Trace.Along atStep (fun _ _ t => OwnLines t) atInit lateRun := by
  decide +kernel

end ENV
